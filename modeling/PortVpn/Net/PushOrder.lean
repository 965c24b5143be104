import PortVpn.Net.TreeSet

/-!
# The order in which networks are added

The server's routes and the local networks reach a `NetworkSpace` in an order that varies.
`addAll_perm` shows that the order does not matter as long as equal networks are added with the same
flag, and the priority queue resolves ties alike. What the addresses of a network have outside its
prefix plays no role for the algorithm, so that networks are compared in their canonical form, and
two runs are related by a simulation that lets the priority queues hold the same networks in
different orders.
-/

set_option autoImplicit false

namespace PortVpn.Net

open PortVpn.Lib

/-! ## Canonical networks -/

namespace IpAddress

variable {a b : IpAddress}

/-- The network with its first address. -/
def canonical (a : IpAddress) : IpAddress := { a with netAddress := a.getFirstAddress }

theorem block_canonical (a : IpAddress) : a.canonical.block = a.block := by
  refine block_eq_of_mem rfl ?_
  show a.getFirstAddress ∈ a.block
  rw [getFirstAddress_eq]
  exact Block.first_mem _

@[simp] theorem getFirstAddress_canonical (a : IpAddress) :
    a.canonical.getFirstAddress = a.getFirstAddress := by
  rw [getFirstAddress_eq, getFirstAddress_eq, block_canonical]

@[simp] theorem getLastAddress_canonical (a : IpAddress) :
    a.canonical.getLastAddress = a.getLastAddress := by
  rw [getLastAddress_eq, getLastAddress_eq, block_canonical]

@[simp] theorem key_canonical (a : IpAddress) : a.canonical.key = a.key := by
  rw [key, getFirstAddress_canonical, key]
  rfl

@[simp] theorem firstHalf_canonical (a : IpAddress) : a.canonical.firstHalf = a.firstHalf := by
  rw [firstHalf, getFirstAddress_canonical, firstHalf]
  rfl

@[simp] theorem secondHalf_canonical (a : IpAddress) : a.canonical.secondHalf = a.secondHalf := by
  rw [secondHalf, firstHalf_canonical, secondHalf]
  rfl

/-- Equal networks with the same flag and of the same family have one canonical form. -/
theorem canonical_eq_iff : a.canonical = b.canonical ↔
    a.key = b.key ∧ a.included = b.included ∧ a.isV4 = b.isV4 := by
  rw [key_eq_iff]
  obtain ⟨n, m, f, v⟩ := a
  obtain ⟨n', m', f', v'⟩ := b
  simp only [canonical, mk.injEq]
  tauto

end IpAddress

section

variable {a b : IpAddress} (h : a.canonical = b.canonical)
include h

theorem first_of_canonical : a.getFirstAddress = b.getFirstAddress := by
  rw [← a.getFirstAddress_canonical, h, b.getFirstAddress_canonical]

theorem last_of_canonical : a.getLastAddress = b.getLastAddress := by
  rw [← a.getLastAddress_canonical, h, b.getLastAddress_canonical]

theorem key_of_canonical : a.key = b.key := by
  rw [← a.key_canonical, h, b.key_canonical]

theorem firstHalf_of_canonical : a.firstHalf = b.firstHalf := by
  rw [← a.firstHalf_canonical, h, b.firstHalf_canonical]

theorem secondHalf_of_canonical : a.secondHalf = b.secondHalf := by
  rw [← a.secondHalf_canonical, h, b.secondHalf_canonical]

theorem mask_of_canonical : a.networkMask = b.networkMask := by
  show a.canonical.networkMask = b.canonical.networkMask
  rw [h]

theorem included_of_canonical : a.included = b.included := by
  show a.canonical.included = b.canonical.included
  rw [h]

end

/-- The canonical forms of a tree set. -/
theorem map_treeAdd (a : IpAddress) (s : List IpAddress) :
    (treeAdd a s).map IpAddress.canonical =
      treeAdd a.canonical (s.map IpAddress.canonical) := by
  induction s with
  | nil => rfl
  | cons b s ih =>
      rw [treeAdd_cons, List.map_cons, treeAdd_cons, IpAddress.key_canonical,
        IpAddress.key_canonical]
      split
      · rfl
      · split
        · rfl
        · rw [List.map_cons, ih]

/-! ## Additions -/

/-- The calls that add a network. -/
inductive Addition where
  | addIP (cidrIp : CIDRIP) (included : Bool)
  | addIPv6 (address : List UInt8) (mask : Int) (included : Bool)
  deriving DecidableEq, Repr

/-- The network that a call adds; none when the address cannot be read. -/
def Addition.network : Addition → Option IpAddress
  | .addIP cidrIp included => IpAddress.ofCIDR cidrIp included
  | .addIPv6 address mask included => some (IpAddress.ofInet6 address mask included)

namespace NetworkSpace

/-- One call. -/
def call (s : NetworkSpace) : Addition → Option NetworkSpace
  | .addIP cidrIp included => s.addIP cidrIp included
  | .addIPv6 address mask included => some (s.addIPv6 address mask included)

/-- The calls of a list on an empty space. -/
def addAll (l : List Addition) : Option NetworkSpace := l.foldlM call {}

end NetworkSpace

/-- No network is added with different flags. The families share one set, in which networks with
the same first address and prefix length are equal. -/
def NoConflict (l : List Addition) : Prop :=
  ∀ x ∈ l, ∀ y ∈ l, ∀ a ∈ x.network, ∀ b ∈ y.network, a.key = b.key →
    a.included = b.included ∧ a.isV4 = b.isV4

theorem call_eq (s : NetworkSpace) (x : Addition) : s.call x = x.network.map s.add := by
  cases x <;> rfl

theorem foldlM_call (l : List Addition) (s : NetworkSpace) :
    l.foldlM NetworkSpace.call s = (l.mapM Addition.network).map fun nets =>
      ⟨nets.foldl (fun s a => treeAdd a s) s.mIpAddresses⟩ := by
  induction l generalizing s with
  | nil => rfl
  | cons x l ih =>
      rw [List.foldlM_cons, call_eq, List.mapM_cons]
      cases x.network with
      | none => rfl
      | some a =>
          show l.foldlM NetworkSpace.call (s.add a) = _
          rw [ih]
          cases l.mapM Addition.network <;> rfl

/-! ## Ties -/

/-- Of equal networks, two queues hand out the same one. -/
def PollsAlike (choice : Nat) (l : List IpAddress) (choice' : Nat) (l' : List IpAddress) : Prop :=
  ∀ p ∈ poll choice l, ∀ p' ∈ poll choice' l', p.1.key = p'.1.key → p.1.canonical = p'.1.canonical

/-- The queues of two runs of the loop resolve ties alike in every round. -/
def Merge.TiesAlike : List Nat → Merge → List Nat → Merge → Prop
  | choice :: choices, s, choice' :: choices', s' =>
      ∀ currentNet ∈ s.currentNet, ∀ currentNet' ∈ s'.currentNet,
        PollsAlike choice s.networks choice' s'.networks ∧
          TiesAlike choices (s.round choice currentNet) choices' (s'.round choice' currentNet')
  | _, _, _, _ => True

/-- The queues of two calls of `generateIPList` resolve ties alike, from the first `poll` on. -/
def TiesAlike (choice : Nat) (choices : List Nat) (l : List IpAddress) (choice' : Nat)
    (choices' : List Nat) (l' : List IpAddress) : Prop :=
  PollsAlike choice l choice' l' ∧
    Merge.TiesAlike choices (Merge.start choice l) choices' (Merge.start choice' l')

/-- Each call of `generateIPList` on the one space has calls on the other that resolve ties alike,
and all of those return the same networks with the same flags. -/
def NetworkSpace.GeneratesSame (s s' : NetworkSpace) : Prop :=
  ∀ choice choices nets, generateIPList choice choices s.mIpAddresses = some nets →
    (∃ choice' choices' nets', generateIPList choice' choices' s'.mIpAddresses = some nets' ∧
      TiesAlike choice choices s.mIpAddresses choice' choices' s'.mIpAddresses) ∧
    ∀ choice' choices' nets', generateIPList choice' choices' s'.mIpAddresses = some nets' →
      TiesAlike choice choices s.mIpAddresses choice' choices' s'.mIpAddresses →
        nets'.map IpAddress.canonical = nets.map IpAddress.canonical

/-! ## Two runs -/

/-- The queue holds the same canonical networks. -/
def SameQueue (l l' : List IpAddress) : Prop :=
  (l.map IpAddress.canonical).Perm (l'.map IpAddress.canonical)

section

variable {l l' : List IpAddress} {a a' : IpAddress}

theorem SameQueue.symm (h : SameQueue l l') : SameQueue l' l := List.Perm.symm h

theorem SameQueue.cons (h : SameQueue l l') (ha : a.canonical = a'.canonical) :
    SameQueue (a :: l) (a' :: l') := by
  rw [SameQueue, List.map_cons, List.map_cons, ha]
  exact List.Perm.cons _ h

theorem SameQueue.exists_mem (h : SameQueue l l') (ha : a ∈ l) :
    ∃ a' ∈ l', a.canonical = a'.canonical := by
  obtain ⟨a', ha', heq⟩ := List.mem_map.1 (h.mem_iff.1 (List.mem_map_of_mem ha))
  exact ⟨a', ha', heq.symm⟩

theorem SameQueue.least_of_mem (h : SameQueue l l') (ha : a ∈ least l) (ha' : a' ∈ l')
    (heq : a.canonical = a'.canonical) : a' ∈ least l' := by
  rw [mem_least] at ha ⊢
  refine ⟨ha', fun b' hb' => ?_⟩
  obtain ⟨b, hb, hbb⟩ := h.symm.exists_mem hb'
  rw [IpAddress.compareTo_eq_compare, key_of_canonical hbb, ← key_of_canonical heq,
    ← IpAddress.compareTo_eq_compare]
  exact ha.2 b hb

theorem SameQueue.contains_of (h : SameQueue l l') (hc : contains l a) : contains l' a := by
  obtain ⟨b, hb, heq⟩ := List.any_eq_true.1 hc
  obtain ⟨b', hb', hbb⟩ := h.exists_mem hb
  refine List.any_eq_true.2 ⟨b', hb', ?_⟩
  rwa [IpAddress.equals, ← mask_of_canonical hbb, ← first_of_canonical hbb, ← IpAddress.equals]

theorem SameQueue.of_addNew (h : SameQueue l l') (a : IpAddress) :
    SameQueue (addNew a l) (addNew a l') := by
  have hc : contains l a = contains l' a :=
    Bool.eq_iff_iff.2 ⟨h.contains_of, h.symm.contains_of⟩
  unfold addNew
  rw [hc]
  split
  · exact h
  · exact h.cons rfl

theorem exists_poll (ha : a ∈ least l) : ∃ choice, poll choice l = some (a, l.erase a) := by
  obtain ⟨i, hi, hget⟩ := List.getElem_of_mem ha
  refine ⟨i, ?_⟩
  rw [poll, Nat.mod_eq_of_lt hi, List.getElem?_eq_getElem hi, hget]
  rfl

theorem SameQueue.of_erase (h : SameQueue l l') (ha : a ∈ l) (ha' : a' ∈ l')
    (heq : a.canonical = a'.canonical) : SameQueue (l.erase a) (l'.erase a') := by
  have h₁ := (List.perm_cons_erase ha).map IpAddress.canonical
  have h₂ := (List.perm_cons_erase ha').map IpAddress.canonical
  have hall : ((a :: l.erase a).map IpAddress.canonical).Perm
      ((a' :: l'.erase a').map IpAddress.canonical) := h₁.symm.trans (h.trans h₂)
  rw [List.map_cons, List.map_cons, heq] at hall
  exact hall.cons_inv

/-- Both queues hand out networks that are equal for the set. -/
theorem SameQueue.key_of_poll (h : SameQueue l l') {choice choice' : Nat} {rest rest'}
    (hp : poll choice l = some (a, rest)) (hp' : poll choice' l' = some (a', rest')) :
    a.key = a'.key := by
  have hle : ∀ {l l' : List IpAddress} {a a' : IpAddress}, SameQueue l l' → a ∈ least l →
      a' ∈ l' → a.key ≤ a'.key := by
    intro l l' a a' h ha ha'
    obtain ⟨b, hb, heq⟩ := h.symm.exists_mem ha'
    have hnot := (mem_least.1 ha).2 b hb
    rwa [IpAddress.compareTo_eq_compare, ← key_of_canonical heq, Ne, compare_lt_iff_lt,
      not_lt] at hnot
  have ha := (poll_some hp).1
  have ha' := (poll_some hp').1
  exact le_antisymm (hle h ha (mem_least.1 ha').1) (hle h.symm ha' (mem_least.1 ha).1)

/-- What one queue hands out, the other can hand out too. -/
theorem SameQueue.exists_alike (h : SameQueue l l') (choice : Nat) :
    ∃ choice', PollsAlike choice l choice' l' := by
  cases hp : poll choice l with
  | none => exact ⟨choice, fun p hp₁ => absurd (hp ▸ hp₁) (Option.not_mem_none p)⟩
  | some r =>
      obtain ⟨a, rest⟩ := r
      obtain ⟨hleast, -⟩ := poll_some hp
      obtain ⟨a', ha', heq⟩ := h.exists_mem (mem_least.1 hleast).1
      obtain ⟨choice', hp'⟩ := exists_poll (h.least_of_mem hleast ha' heq)
      refine ⟨choice', fun p hp₁ p' hp₁' _ => ?_⟩
      rw [hp] at hp₁
      rw [hp'] at hp₁'
      obtain rfl := Option.some.inj hp₁
      obtain rfl := Option.some.inj hp₁'
      exact heq

/-- What is handed out alike leaves the same queues. -/
theorem SameQueue.of_poll (h : SameQueue l l') {choice choice' : Nat}
    (hties : PollsAlike choice l choice' l') {rest rest' : List IpAddress}
    (hp : poll choice l = some (a, rest)) (hp' : poll choice' l' = some (a', rest')) :
    a.canonical = a'.canonical ∧ SameQueue rest rest' := by
  have heq : a.canonical = a'.canonical := hties _ hp _ hp' (h.key_of_poll hp hp')
  obtain ⟨hleast, rfl⟩ := poll_some hp
  obtain ⟨hleast', rfl⟩ := poll_some hp'
  exact ⟨heq, h.of_erase (mem_least.1 hleast).1 (mem_least.1 hleast').1 heq⟩

theorem SameQueue.of_poll_none (h : SameQueue l l') {choice : Nat}
    (hp : poll choice l = none) (choice' : Nat) : poll choice' l' = none := by
  cases hp' : poll choice' l' with
  | none => rfl
  | some r =>
      obtain ⟨a', rest'⟩ := r
      obtain ⟨hleast', -⟩ := poll_some hp'
      obtain ⟨a, ha, heq⟩ := h.symm.exists_mem (mem_least.1 hleast').1
      have hpos := List.length_pos_of_mem (h.symm.least_of_mem hleast' ha heq)
      have hnone := List.getElem?_eq_none_iff.1 (Option.map_eq_none_iff.1 hp)
      have := Nat.mod_lt choice hpos
      omega

end

namespace Merge

variable {s s' : Merge} {currentNet currentNet' nextNet nextNet' : IpAddress}

/-- Two states of the loop with the same canonical networks. -/
structure Same (s s' : Merge) : Prop where
  networks : SameQueue s.networks s'.networks
  ipsDone : s.ipsDone.map IpAddress.canonical = s'.ipsDone.map IpAddress.canonical
  currentNet : s.currentNet.map IpAddress.canonical = s'.currentNet.map IpAddress.canonical

theorem Same.finish (h : Same s s') (hc : currentNet.canonical = currentNet'.canonical)
    {next next' : Option IpAddress}
    (hn : next.map IpAddress.canonical = next'.map IpAddress.canonical) :
    Same (s.finish currentNet next) (s'.finish currentNet' next') :=
  ⟨h.networks, by
    show (treeAdd currentNet s.ipsDone).map _ = (treeAdd currentNet' s'.ipsDone).map _
    rw [map_treeAdd, map_treeAdd, hc, h.ipsDone], hn⟩

theorem Same.mergeSameBase (h : Same s s') (hc : currentNet.canonical = currentNet'.canonical)
    (hn : nextNet.canonical = nextNet'.canonical) :
    Same (s.mergeSameBase currentNet nextNet) (s'.mergeSameBase currentNet' nextNet') := by
  unfold Merge.mergeSameBase
  rw [included_of_canonical hc, included_of_canonical hn, firstHalf_of_canonical hn,
    secondHalf_of_canonical hn, last_of_canonical hc]
  split
  · exact ⟨h.networks, h.ipsDone, by simp only [Option.map_some, hn]⟩
  · refine ⟨?_, h.ipsDone, h.currentNet⟩
    simp only
    split
    · exact h.networks.of_addNew _
    · exact (h.networks.of_addNew _).of_addNew _

theorem Same.mergeInside (h : Same s s') (hc : currentNet.canonical = currentNet'.canonical)
    (hn : nextNet.canonical = nextNet'.canonical) :
    Same (s.mergeInside currentNet nextNet) (s'.mergeInside currentNet' nextNet') := by
  unfold Merge.mergeInside
  rw [included_of_canonical hc, included_of_canonical hn, firstHalf_of_canonical hc,
    secondHalf_of_canonical hc, mask_of_canonical hn]
  split
  · exact h
  · refine ⟨?_, h.ipsDone, rfl⟩
    simp only
    split
    · exact h.networks.cons hn
    · exact (h.networks.cons rfl).cons hn

/-- One round, with ties resolved alike. -/
theorem Same.round (h : Same s s') (hc : currentNet.canonical = currentNet'.canonical)
    {choice choice' : Nat} (hties : PollsAlike choice s.networks choice' s'.networks) :
    Same (s.round choice currentNet) (s'.round choice' currentNet') := by
  cases hp : poll choice s.networks with
  | none =>
      rw [Merge.round, hp, Merge.round, h.networks.of_poll_none hp]
      exact h.finish hc rfl
  | some r =>
      obtain ⟨nextNet, networks⟩ := r
      cases hp' : poll choice' s'.networks with
      | none => exact absurd (h.networks.symm.of_poll_none hp' choice) (by simp [hp])
      | some r' =>
          obtain ⟨nextNet', networks'⟩ := r'
          obtain ⟨hn, hrest⟩ := h.networks.of_poll hties hp hp'
          have hs : Same { s with networks := networks } { s' with networks := networks' } :=
            ⟨hrest, h.ipsDone, h.currentNet⟩
          rw [Merge.round, hp, Merge.round, hp']
          simp only [last_of_canonical hc, first_of_canonical hn, first_of_canonical hc,
            mask_of_canonical hc, mask_of_canonical hn]
          split
          · exact hs.finish hc (by simp only [Option.map_some, hn])
          · split
            · exact hs.mergeSameBase hc hn
            · exact hs.mergeInside hc hn

theorem Same.of_none (h : Same s s') (hnone : s.currentNet = none) : s'.currentNet = none := by
  have hcur := h.currentNet
  rw [hnone, Option.map_none] at hcur
  exact Option.map_eq_none_iff.1 hcur.symm

theorem Same.of_some (h : Same s s') (hsome : s.currentNet = some currentNet) :
    ∃ currentNet', s'.currentNet = some currentNet' ∧
      currentNet.canonical = currentNet'.canonical := by
  have hcur := h.currentNet
  rw [hsome, Option.map_some] at hcur
  obtain ⟨currentNet', hc', heq⟩ := Option.map_eq_some_iff.1 hcur.symm
  exact ⟨currentNet', hc', heq.symm⟩

theorem loop_of_none (hnone : s.currentNet = none) (choices : List Nat) :
    Merge.loop choices s = some s.ipsDone := by
  cases choices with
  | nil => rw [Merge.loop, if_pos hnone]
  | cons choice choices => rw [Merge.loop, hnone]

theorem loop_of_some (hsome : s.currentNet = some currentNet) {choices : List Nat}
    {r : List IpAddress} (hr : Merge.loop choices s = some r) : ∃ choice rest,
      choices = choice :: rest ∧ Merge.loop rest (s.round choice currentNet) = some r := by
  cases choices with
  | nil =>
      rw [Merge.loop, hsome, if_neg (Option.some_ne_none _)] at hr
      cases hr
  | cons choice rest =>
      rw [Merge.loop, hsome] at hr
      exact ⟨choice, rest, rfl, hr⟩

/-- **Whole runs**: with ties resolved alike, they end with the same networks. -/
theorem Same.loop (h : Same s s') {choices choices' : List Nat}
    (hties : TiesAlike choices s choices' s') {r r' : List IpAddress}
    (hr : Merge.loop choices s = some r) (hr' : Merge.loop choices' s' = some r') :
    r.map IpAddress.canonical = r'.map IpAddress.canonical := by
  induction choices generalizing choices' s s' with
  | nil =>
      have hnone : s.currentNet = none := by
        by_contra hne
        obtain ⟨currentNet, hc⟩ := Option.ne_none_iff_exists'.1 hne
        obtain ⟨choice, rest, hnil, -⟩ := loop_of_some hc hr
        cases hnil
      rw [loop_of_none hnone] at hr
      rw [loop_of_none (h.of_none hnone)] at hr'
      rw [← Option.some.inj hr, ← Option.some.inj hr', h.ipsDone]
  | cons choice choices ih =>
      cases hc : s.currentNet with
      | none =>
          rw [loop_of_none hc] at hr
          rw [loop_of_none (h.of_none hc)] at hr'
          rw [← Option.some.inj hr, ← Option.some.inj hr', h.ipsDone]
      | some currentNet =>
          obtain ⟨currentNet', hc', heq⟩ := h.of_some hc
          obtain ⟨choice', rest', rfl, hrest⟩ := loop_of_some hc' hr'
          obtain ⟨hpolls, hties⟩ := hties currentNet hc currentNet' hc'
          rw [Merge.loop, hc] at hr
          exact ih (h.round heq hpolls) hties hr hrest

/-- A whole run can be followed, with ties resolved alike. -/
theorem Same.exists_loop (h : Same s s') {choices : List Nat} {r : List IpAddress}
    (hr : Merge.loop choices s = some r) :
    ∃ choices' r', Merge.loop choices' s' = some r' ∧ TiesAlike choices s choices' s' := by
  induction choices generalizing s s' with
  | nil =>
      have hnone : s.currentNet = none := by
        by_contra hne
        obtain ⟨currentNet, hc⟩ := Option.ne_none_iff_exists'.1 hne
        obtain ⟨choice, rest, hnil, -⟩ := loop_of_some hc hr
        cases hnil
      exact ⟨[], _, loop_of_none (h.of_none hnone) [], trivial⟩
  | cons choice choices ih =>
      cases hc : s.currentNet with
      | none => exact ⟨[], _, loop_of_none (h.of_none hc) [], trivial⟩
      | some currentNet =>
          obtain ⟨currentNet', hc', heq⟩ := h.of_some hc
          obtain ⟨choice', hpolls⟩ := h.networks.exists_alike choice
          rw [Merge.loop, hc] at hr
          obtain ⟨choices', r', hr', hties⟩ := ih (h.round heq hpolls) hr
          refine ⟨choice' :: choices', r', by rw [Merge.loop, hc']; exact hr', ?_⟩
          intro a ha a' ha'
          obtain rfl := Option.some.inj (hc.symm.trans ha)
          obtain rfl := Option.some.inj (hc'.symm.trans ha')
          exact ⟨hpolls, hties⟩

end Merge

/-- Before the loop, both spaces poll once. -/
theorem SameQueue.start {l l' : List IpAddress} (h : SameQueue l l') {choice choice' : Nat}
    (hties : PollsAlike choice l choice' l') :
    (Merge.start choice l).Same (Merge.start choice' l') := by
  cases hp : poll choice l with
  | none =>
      rw [Merge.start, hp, Merge.start, h.of_poll_none hp]
      exact ⟨List.Perm.refl _, rfl, rfl⟩
  | some r =>
      obtain ⟨currentNet, rest⟩ := r
      cases hp' : poll choice' l' with
      | none => exact absurd (h.symm.of_poll_none hp' choice) (by simp [hp])
      | some r' =>
          obtain ⟨currentNet', rest'⟩ := r'
          obtain ⟨hc, hrest⟩ := h.of_poll hties hp hp'
          rw [Merge.start, hp, Merge.start, hp']
          exact ⟨hrest, rfl, by simp only [Option.map_some, hc]⟩

/-- Queues with the same canonical networks have the same results. -/
theorem SameQueue.generatesSame {s s' : NetworkSpace}
    (h : SameQueue s.mIpAddresses s'.mIpAddresses) : s.GeneratesSame s' := by
  intro choice choices nets hnets
  constructor
  · obtain ⟨choice', hpolls⟩ := h.exists_alike choice
    obtain ⟨choices', nets', hnets', hties⟩ := (h.start hpolls).exists_loop hnets
    exact ⟨choice', choices', nets', hnets', hpolls, hties⟩
  · intro choice' choices' nets' hnets' hties
    exact ((h.start hties.1).loop hties.2 hnets hnets').symm

/-! ## The statement -/

theorem mapM_eq_some_iff {α β : Type} {f : α → Option β} {l : List α} {r : List β} :
    l.mapM f = some r ↔ (∀ x ∈ l, (f x).isSome) ∧ r = l.filterMap f := by
  induction l generalizing r with
  | nil =>
      exact ⟨fun h => ⟨by simp, (Option.some.inj h).symm⟩, fun h => congrArg some h.2.symm⟩
  | cons x l ih =>
      rw [List.mapM_cons]
      cases hx : f x with
      | none => simp [hx]
      | some b =>
          simp only [Option.bind_eq_bind, Option.bind_some, Option.bind_eq_some_iff, ih,
            List.forall_mem_cons, List.filterMap_cons, hx, Option.isSome_some, true_and]
          constructor
          · rintro ⟨_, ⟨hall, rfl⟩, hr⟩
            exact ⟨hall, (Option.some.inj hr).symm⟩
          · rintro ⟨hall, rfl⟩
            exact ⟨_, ⟨hall, rfl⟩, rfl⟩

/-- Adding networks that are equal for the set only when they have the same canonical form. -/
theorem foldl_treeAdd_perm {nets nets' : List IpAddress} (hperm : nets.Perm nets')
    (h : ∀ a ∈ nets, ∀ b ∈ nets, a.key = b.key → a.canonical = b.canonical) :
    (nets.foldl (fun s a => treeAdd a s) []).map IpAddress.canonical =
      (nets'.foldl (fun s a => treeAdd a s) []).map IpAddress.canonical := by
  have hmap : ∀ (nets s : List IpAddress),
      (nets.foldl (fun s a => treeAdd a s) s).map IpAddress.canonical =
        (nets.map IpAddress.canonical).foldl (fun s a => treeAdd a s)
          (s.map IpAddress.canonical) := by
    intro nets
    induction nets with
    | nil => exact fun _ => rfl
    | cons a nets ih =>
        intro s
        rw [List.foldl_cons, ih, map_treeAdd, List.map_cons, List.foldl_cons]
  rw [hmap, hmap]
  refine (hperm.map _).foldl_eq' (fun x hx y hy s => ?_) _
  obtain ⟨a, ha, rfl⟩ := List.mem_map.1 hx
  obtain ⟨b, hb, rfl⟩ := List.mem_map.1 hy
  refine treeAdd_comm fun hkey => ?_
  rw [IpAddress.key_canonical, IpAddress.key_canonical] at hkey
  exact (h a ha b hb hkey.symm).symm

/-- **The order of the additions does not matter**, unless equal networks are added with different
flags: the set then holds the same networks with the same flags, and `generateIPList` returns the
same networks with the same flags when its queue resolves ties alike. -/
theorem addAll_perm {l l' : List Addition} (hperm : l.Perm l') (hc : NoConflict l)
    {s : NetworkSpace} (hs : NetworkSpace.addAll l = some s) :
    ∃ s', NetworkSpace.addAll l' = some s' ∧
      s.mIpAddresses.map IpAddress.canonical = s'.mIpAddresses.map IpAddress.canonical ∧
        s.GeneratesSame s' ∧ s'.GeneratesSame s := by
  rw [NetworkSpace.addAll, foldlM_call] at hs ⊢
  obtain ⟨nets, hnets, rfl⟩ := Option.map_eq_some_iff.1 hs
  obtain ⟨hall, rfl⟩ := mapM_eq_some_iff.1 hnets
  have hnets' : l'.mapM Addition.network = some (l'.filterMap Addition.network) :=
    mapM_eq_some_iff.2 ⟨fun x hx => hall x (hperm.mem_iff.2 hx), rfl⟩
  have hsets := foldl_treeAdd_perm (hperm.filterMap Addition.network) fun a ha b hb hkey => by
    obtain ⟨x, hx, hxa⟩ := List.mem_filterMap.1 ha
    obtain ⟨y, hy, hyb⟩ := List.mem_filterMap.1 hb
    exact IpAddress.canonical_eq_iff.2 ⟨hkey, hc x hx y hy a hxa b hyb hkey⟩
  have hqueue : SameQueue
      ((l.filterMap Addition.network).foldl (fun s a => treeAdd a s) [])
      ((l'.filterMap Addition.network).foldl (fun s a => treeAdd a s) []) := by
    rw [SameQueue, hsets]
  exact ⟨_, by rw [hnets']; rfl, hsets, hqueue.generatesSame, hqueue.symm.generatesSame⟩

instance (l : List Addition) : Decidable (NoConflict l) :=
  inferInstanceAs (Decidable (∀ x ∈ l, ∀ y ∈ l, ∀ a ∈ x.network, ∀ b ∈ y.network, a.key = b.key →
    a.included = b.included ∧ a.isV4 = b.isV4))

/-- A default route and a route that is given twice. -/
def routesTwice : List Addition :=
  [.addIP ⟨"0.0.0.0".toList, 0⟩ true, .addIP ⟨"10.8.0.1".toList, 24⟩ true,
    .addIP ⟨"10.8.0.2".toList, 24⟩ true]

theorem addAll_perm_twice :
    ∃ s', NetworkSpace.addAll routesTwice.reverse = some s' ∧
      [⟨0, 0, true, true⟩, ⟨0x0A080001, 24, true, true⟩].map IpAddress.canonical =
        s'.mIpAddresses.map IpAddress.canonical ∧
        NetworkSpace.GeneratesSame ⟨[⟨0, 0, true, true⟩, ⟨0x0A080001, 24, true, true⟩]⟩ s' ∧
          s'.GeneratesSame ⟨[⟨0, 0, true, true⟩, ⟨0x0A080001, 24, true, true⟩]⟩ := by
  have hs : NetworkSpace.addAll routesTwice =
      some ⟨[⟨0, 0, true, true⟩, ⟨0x0A080001, 24, true, true⟩]⟩ := by decide +kernel
  exact addAll_perm (List.reverse_perm _).symm (by decide +kernel) hs

/-- A space with one network has one result. -/
theorem generateIPList_singleton {a : IpAddress} (ha : least [a] = [a]) {choice : Nat}
    {choices : List Nat} {nets : List IpAddress}
    (h : generateIPList choice choices [a] = some nets) : nets = [a] := by
  have hpoll : poll choice [a] = some (a, []) := by
    rw [poll, ha]
    simp [Nat.mod_one]
  have hstart : Merge.start choice [a] = ⟨[], [], some a⟩ := by rw [Merge.start, hpoll]
  rw [generateIPList, hstart] at h
  obtain ⟨c, rest, -, h⟩ := Merge.loop_of_some rfl h
  exact (Option.some.inj ((Merge.loop_of_none rfl rest).symm.trans h)).symm

/-- **The flag that was added first**: a route pushed into the VPN and the same network around it.
All results of the one order have the network in the VPN, all those of the other around it. -/
theorem addAll_perm_counterexample :
    let into := Addition.addIP ⟨"10.0.0.0".toList, 8⟩ true
    let around := Addition.addIP ⟨"10.0.0.0".toList, 8⟩ false
    ∃ s s', NetworkSpace.addAll [into, around] = some s ∧
      NetworkSpace.addAll [around, into] = some s' ∧
      (∃ choices, generateIPList 0 choices s.mIpAddresses = some [⟨0x0A000000, 8, true, true⟩] ∧
        generateIPList 0 choices s'.mIpAddresses = some [⟨0x0A000000, 8, false, true⟩]) ∧
      ∀ choice choices nets choice' choices' nets',
        generateIPList choice choices s.mIpAddresses = some nets →
          generateIPList choice' choices' s'.mIpAddresses = some nets' →
            nets.map IpAddress.canonical ≠ nets'.map IpAddress.canonical := by
  refine ⟨⟨[⟨0x0A000000, 8, true, true⟩]⟩, ⟨[⟨0x0A000000, 8, false, true⟩]⟩,
    by decide +kernel, by decide +kernel, ⟨[0], by decide +kernel, by decide +kernel⟩, ?_⟩
  intro choice choices nets choice' choices' nets' h h'
  rw [generateIPList_singleton (by decide +kernel) h,
    generateIPList_singleton (by decide +kernel) h']
  decide +kernel

end PortVpn.Net
