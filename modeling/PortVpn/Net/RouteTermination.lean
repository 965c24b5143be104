import PortVpn.Net.MostSpecificRoute

/-!
# The end of the route computation

A round of `generateIPList` may queue two networks for the one that it polls, may queue the polled
network again, and splits a single address into two "halves" of one address each, the second of
them outside. `generateIPList_ends` shows that the loop ends all the same, whatever the queue
returns among equal networks.

The weight of the networks that are not done falls in every round but one kind: a single address
that is split. Its second half starts behind the current network, so that the number of queued
networks at or before the start of the current one falls instead.
-/

set_option autoImplicit false

namespace PortVpn.Net

open PortVpn.Lib IpAddress
open Polled (newHalves innerHalf totalWeight_newHalves mergeSameBase_networks
  mergeInside_networks)

variable {v : Bool} {a b c : IpAddress} {choice : Nat} {networks rest : List IpAddress}
  {ipsDone : List IpAddress} {currentNet nextNet : IpAddress}

/-! ## Networks with any prefix length -/

/-- A network of the address family; its prefix may be longer than an address, or negative. -/
def IpAddress.OfFamily (isV4 : Bool) (a : IpAddress) : Prop := a.isV4 = isV4

namespace IpAddress.OfFamily

theorem numBits_eq (h : a.OfFamily v) : a.numBits = (width v - a.networkMask).toNat := by
  rw [numBits, show a.isV4 = v from h, width]
  cases v <;> rfl

theorem pos_iff (h : a.OfFamily v) : 0 < a.block.level ↔ a.networkMask < width v := by
  show 0 < a.numBits ↔ _
  rw [h.numBits_eq]
  omega

theorem fits (h : a.OfFamily v) (hpos : 0 < a.block.level) : Fits v a :=
  ⟨h, le_of_lt (h.pos_iff.1 hpos)⟩

theorem firstHalf (h : a.OfFamily v) : a.firstHalf.OfFamily v := h

theorem secondHalf (h : a.OfFamily v) : a.secondHalf.OfFamily v := h

/-- A longer prefix leaves fewer addresses. -/
theorem level_le (ha : a.OfFamily v) (hb : b.OfFamily v) (h : b.networkMask ≤ a.networkMask) :
    a.block.level ≤ b.block.level := by
  show a.numBits ≤ b.numBits
  rw [ha.numBits_eq, hb.numBits_eq]
  omega

end IpAddress.OfFamily

section SingleAddress

variable (h : a.OfFamily v) (hzero : a.block.level = 0)
include hzero

theorem first_of_level_zero : a.block.first = a.netAddress := by
  have hbits : a.numBits = 0 := hzero
  simp [Block.first, block, hbits]

theorem last_of_level_zero : a.block.last = a.block.first := by
  rw [Block.last, Block.first, hzero]
  omega

include h

theorem IpAddress.OfFamily.half_level_zero (hb : b.OfFamily v)
    (hmask : a.networkMask ≤ b.networkMask) : b.block.level = 0 := by
  have := hb.level_le h hmask
  omega

/-- The first half of a single address is that address. -/
theorem firstHalf_first_of_level_zero : a.firstHalf.block.first = a.block.first := by
  have hhalf := h.half_level_zero hzero h.firstHalf (Int.le_add_one (le_refl _))
  rw [first_of_level_zero hhalf, IpAddress.firstHalf, getFirstAddress_eq]

/-- The second half of a single address is the address behind it. -/
theorem secondHalf_first_of_level_zero : a.secondHalf.block.first = a.block.first + 1 := by
  have hhalf := h.half_level_zero hzero h.firstHalf (Int.le_add_one (le_refl _))
  have hhalf' := h.half_level_zero hzero h.secondHalf (Int.le_add_one (le_refl _))
  rw [first_of_level_zero hhalf', IpAddress.secondHalf]
  show a.firstHalf.getLastAddress + 1 = _
  rw [getLastAddress_eq, last_of_level_zero hhalf, firstHalf_first_of_level_zero h hzero]

end SingleAddress

/-- The halves of a network start at it and behind its start. -/
theorem IpAddress.OfFamily.firstHalf_first (h : a.OfFamily v) :
    a.firstHalf.block.first = a.block.first := by
  rcases Nat.eq_zero_or_pos a.block.level with hzero | hpos
  · exact firstHalf_first_of_level_zero h hzero
  · rw [(h.fits hpos).firstHalf_block hpos, Block.lower_first hpos]

theorem IpAddress.OfFamily.lt_secondHalf_first (h : a.OfFamily v) :
    a.block.first < a.secondHalf.block.first := by
  rcases Nat.eq_zero_or_pos a.block.level with hzero | hpos
  · rw [secondHalf_first_of_level_zero h hzero]
    exact Int.lt_succ _
  · rw [(h.fits hpos).secondHalf_block hpos, ← Block.lower_first hpos]
    exact a.block.lower_first_lt

theorem weight_of_level_zero (hzero : a.block.level = 0) : a.weight = 1 := by
  simp [weight, hzero]

/-- The network that is polled comes first, and is the smallest that starts at its address. -/
theorem poll_least (h : poll choice networks = some (nextNet, rest)) (hb : b ∈ rest) :
    nextNet.block.first ≤ b.block.first ∧
      (b.block.first = nextNet.block.first → b.networkMask ≤ nextNet.networkMask) := by
  have hmem : b ∈ networks := (perm_of_poll h).mem_iff.2 (List.mem_cons_of_mem _ hb)
  have hleast := (mem_least.1 (poll_some h).1).2 b hmem
  rw [compareTo, getFirstAddress_eq, getFirstAddress_eq] at hleast
  constructor
  · -- a smaller first address alone puts `b` before the polled network
    by_contra hlt
    rw [compare_lt_iff_lt.2 (not_le.1 hlt)] at hleast
    exact hleast rfl
  · intro heq
    by_contra hlt
    rw [compare_eq_iff_eq.2 heq] at hleast
    simp only [gt_iff_lt, not_le.1 hlt, if_true] at hleast
    exact hleast rfl

/-! ## The measure -/

/-- The queued networks that start at the current network or before. -/
def Merge.reached (s : Merge) : Nat :=
  match s.currentNet with
  | none => 0
  | some currentNet => s.networks.countP fun q => q.block.first ≤ currentNet.block.first

/-- The weight of what is not done, and then the queued networks that are reached. -/
def Merge.rank (s : Merge) : Nat ×ₗ Nat := toLex (totalWeight s.pending, s.reached)

/-- The queue holds nothing before the current network, and what starts with it and is smaller is
no longer than an address. -/
structure Merge.Ahead (isV4 : Bool) (networks : List IpAddress) (currentNet : IpAddress) : Prop where
  family : ∀ a ∈ currentNet :: networks, a.OfFamily isV4
  first : ∀ q ∈ networks, currentNet.block.first ≤ q.block.first
  fits : ∀ q ∈ networks, q.block.first = currentNet.block.first →
    currentNet.networkMask < q.networkMask → q.networkMask ≤ width isV4

/-- The invariant of the loop. -/
def Merge.Going (isV4 : Bool) (s : Merge) : Prop :=
  ∀ currentNet, s.currentNet = some currentNet → Merge.Ahead isV4 s.networks currentNet

theorem rank_lt_of_weight {s t : Merge} (h : totalWeight t.pending < totalWeight s.pending) :
    t.rank < s.rank :=
  Prod.Lex.toLex_lt_toLex.2 (Or.inl h)

theorem rank_lt_of_reached {s t : Merge} (h : totalWeight t.pending ≤ totalWeight s.pending)
    (hreached : t.reached < s.reached) : t.rank < s.rank := by
  rcases Nat.lt_or_eq_of_le h with hlt | heq
  · exact rank_lt_of_weight hlt
  · exact Prod.Lex.toLex_lt_toLex.2 (Or.inr ⟨heq, hreached⟩)

/-! ## What a round queues -/

namespace Merge.Ahead

/-- The polled network can be the current one. -/
theorem next (h : Ahead v networks currentNet) (hpoll : poll choice networks = some (nextNet, rest)) :
    Ahead v rest nextNet where
  family := fun a ha =>
    h.family a (List.mem_cons_of_mem _ ((perm_of_poll hpoll).mem_iff.2 ha))
  first := fun _ hq => (poll_least hpoll hq).1
  fits := fun _ hq hfirst hlt => absurd ((poll_least hpoll hq).2 hfirst) (not_le.2 hlt)

theorem of_subset (h : Ahead v networks currentNet) (hsub : ∀ q ∈ rest, q ∈ networks) :
    Ahead v rest currentNet where
  family := by
    intro a ha
    rcases List.mem_cons.1 ha with rfl | ha
    · exact h.family a List.mem_cons_self
    · exact h.family a (List.mem_cons_of_mem _ (hsub a ha))
  first := fun _ hq => h.first _ (hsub _ hq)
  fits := fun _ hq => h.fits _ (hsub _ hq)

/-- The two halves of the next network that may be queued. -/
theorem mem_newHalves {q : IpAddress} (hq : q ∈ newHalves currentNet nextNet rest) :
    q = nextNet.secondHalf ∨
      q = nextNet.firstHalf ∧ nextNet.firstHalf.getLastAddress ≠ currentNet.getLastAddress := by
  rw [newHalves, List.mem_append] at hq
  rcases hq with hq | hq
  · split at hq
    · simp at hq
    · exact Or.inr ⟨(mem_queued.1 hq).1, ‹_›⟩
  · exact Or.inl (mem_queued.1 hq).1

variable (h : Ahead v (nextNet :: rest) currentNet)
include h

/-- A single address that is split leaves no first half: it would end with the current network. -/
theorem firstHalf_last (hfirst : currentNet.block.first = nextNet.block.first)
    (hmask : nextNet.networkMask ≤ currentNet.networkMask) (hzero : nextNet.block.level = 0) :
    nextNet.firstHalf.getLastAddress = currentNet.getLastAddress := by
  have hcurrent := h.family currentNet List.mem_cons_self
  have hnext := h.family nextNet (by simp)
  have hczero := hnext.half_level_zero hzero hcurrent hmask
  have hhzero := hnext.half_level_zero hzero hnext.firstHalf (Int.le_add_one (le_refl _))
  rw [getLastAddress_eq, getLastAddress_eq, last_of_level_zero hhzero, last_of_level_zero hczero,
    hnext.firstHalf_first, hfirst]

theorem splitNext (hfirst : currentNet.block.first = nextNet.block.first)
    (hmask : nextNet.networkMask ≤ currentNet.networkMask) :
    Ahead v (newHalves currentNet nextNet rest ++ rest) currentNet := by
  have hnext := h.family nextNet (by simp)
  have hrest := h.of_subset fun q hq => List.mem_cons_of_mem nextNet hq
  have hsecond := hnext.lt_secondHalf_first
  refine ⟨?_, ?_, ?_⟩
  · intro a ha
    rw [List.mem_cons, List.mem_append] at ha
    rcases ha with rfl | ha | ha
    · exact h.family a List.mem_cons_self
    · rcases mem_newHalves ha with rfl | ⟨rfl, -⟩
      · exact hnext.secondHalf
      · exact hnext.firstHalf
    · exact hrest.family a (List.mem_cons_of_mem _ ha)
  · intro q hq
    rcases List.mem_append.1 hq with hq | hq
    · rcases mem_newHalves hq with rfl | ⟨rfl, -⟩
      · omega
      · rw [hnext.firstHalf_first, hfirst]
    · exact hrest.first q hq
  · intro q hq hqfirst hlt
    rcases List.mem_append.1 hq with hq | hq
    · rcases mem_newHalves hq with rfl | ⟨rfl, hlast⟩
      · omega
      · -- the first half is only queued for a network that has two
        have hpos : 0 < nextNet.block.level := by
          apply Nat.pos_of_ne_zero
          intro hzero
          exact hlast (h.firstHalf_last hfirst hmask hzero)
        exact ((hnext.fits hpos).firstHalf hpos).2
    · exact hrest.fits q hq hqfirst hlt

/-- Splitting the next network makes the rest lighter, or reaches less of it. -/
theorem splitNext_rank (hfirst : currentNet.block.first = nextNet.block.first)
    (hmask : nextNet.networkMask ≤ currentNet.networkMask) (hperm : networks.Perm (nextNet :: rest)) :
    Merge.rank ⟨newHalves currentNet nextNet rest ++ rest, ipsDone, some currentNet⟩ <
      Merge.rank ⟨networks, ipsDone, some currentNet⟩ := by
  have hnext := h.family nextNet (by simp)
  have hweight := totalWeight_perm hperm
  rw [totalWeight_cons] at hweight
  rcases Nat.eq_zero_or_pos nextNet.block.level with hzero | hpos
  · -- only the second half is queued, a single address behind the current network
    have hsecond := hnext.half_level_zero hzero hnext.secondHalf (Int.le_add_one (le_refl _))
    have hnew : newHalves currentNet nextNet rest = queued nextNet.secondHalf rest := by
      rw [newHalves, if_pos (h.firstHalf_last hfirst hmask hzero), List.nil_append]
    have hqueued : totalWeight (queued nextNet.secondHalf rest) ≤ 1 := by
      rw [queued]
      split
      · simp [totalWeight]
      · simp [totalWeight, weight_of_level_zero hsecond]
    have hbehind : ¬ nextNet.secondHalf.block.first ≤ currentNet.block.first := by
      have := hnext.lt_secondHalf_first
      omega
    have hcount : (queued nextNet.secondHalf rest).countP
        (fun q => q.block.first ≤ currentNet.block.first) = 0 := by
      rw [queued]
      split
      · rfl
      · simp [hbehind]
    rw [hnew]
    apply rank_lt_of_reached
    · simp only [Merge.pending, totalWeight_append]
      rw [hweight, weight_of_level_zero hzero]
      omega
    · simp only [Merge.reached]
      rw [hperm.countP_eq, List.countP_append, hcount, List.countP_cons_of_pos (by simp [hfirst])]
      omega
  -- the halves together are lighter than the network
  · have hhalves : totalWeight (newHalves currentNet nextNet rest) < nextNet.weight :=
      totalWeight_newHalves hpos (hnext.fits hpos)
    apply rank_lt_of_weight
    simp only [Merge.pending, totalWeight_append]
    omega

/-- A network that reaches past a smaller one at its own start, or past the start of another, is
no single address. -/
theorem current_pos (hreach : nextNet.block.first ≤ currentNet.block.last)
    (hlarger : ¬ (currentNet.block.first = nextNet.block.first ∧
      currentNet.networkMask ≥ nextNet.networkMask)) : 0 < currentNet.block.level := by
  apply Nat.pos_of_ne_zero
  intro hzero
  have hcurrent := h.family currentNet List.mem_cons_self
  have hfirst := h.first nextNet List.mem_cons_self
  have hlast := last_of_level_zero hzero
  have heq : nextNet.block.first = currentNet.block.first := by omega
  have hlt : currentNet.networkMask < nextNet.networkMask := by
    by_contra hle
    exact hlarger ⟨heq.symm, not_lt.1 hle⟩
  have hfits := h.fits nextNet List.mem_cons_self heq hlt
  have hpos := hcurrent.pos_iff.2 (lt_of_lt_of_le hlt hfits)
  omega

omit h in
theorem mem_innerHalf {q : IpAddress} (hq : q ∈ innerHalf currentNet nextNet) :
    q = currentNet.secondHalf := by
  rw [innerHalf] at hq
  split at hq
  · simp at hq
  · exact List.mem_singleton.1 hq

theorem splitCurrent :
    Ahead v (nextNet :: (innerHalf currentNet nextNet ++ rest)) currentNet.firstHalf := by
  have hcurrent := h.family currentNet List.mem_cons_self
  have hsecond := hcurrent.lt_secondHalf_first
  -- what is queued is the second half, or was queued
  have hmem : ∀ q ∈ nextNet :: (innerHalf currentNet nextNet ++ rest),
      q = currentNet.secondHalf ∨ q ∈ nextNet :: rest := by
    intro q hq
    rw [List.mem_cons, List.mem_append] at hq
    rcases hq with rfl | hq | hq
    · exact Or.inr List.mem_cons_self
    · exact Or.inl (mem_innerHalf hq)
    · exact Or.inr (List.mem_cons_of_mem _ hq)
  refine ⟨?_, ?_, ?_⟩
  · intro a ha
    rcases List.mem_cons.1 ha with rfl | ha
    · exact hcurrent.firstHalf
    · rcases hmem a ha with rfl | ha
      · exact hcurrent.secondHalf
      · exact h.family a (List.mem_cons_of_mem _ ha)
  · intro q hq
    rw [hcurrent.firstHalf_first]
    rcases hmem q hq with rfl | hq
    · exact le_of_lt hsecond
    · exact h.first q hq
  · intro q hq hfirst hlt
    rw [hcurrent.firstHalf_first] at hfirst
    rcases hmem q hq with rfl | hq
    · omega
    · exact h.fits q hq hfirst (lt_trans (Int.lt_succ _) hlt)

theorem splitCurrent_rank (hpos : 0 < currentNet.block.level)
    (hperm : networks.Perm (nextNet :: rest)) :
    Merge.rank ⟨nextNet :: (innerHalf currentNet nextNet ++ rest), ipsDone,
      some currentNet.firstHalf⟩ < Merge.rank ⟨networks, ipsDone, some currentNet⟩ := by
  have hcurrent := (h.family currentNet List.mem_cons_self).fits hpos
  have hweight := totalWeight_perm hperm
  have hhalves := weight_halves (a := currentNet) (b := currentNet.firstHalf)
    (c := currentNet.secondHalf) hpos (by rw [hcurrent.firstHalf_block hpos]; rfl)
    (by rw [hcurrent.secondHalf_block hpos]; rfl)
  have hinner : totalWeight (innerHalf currentNet nextNet) ≤ currentNet.secondHalf.weight := by
    rw [innerHalf]
    split <;> simp [totalWeight]
  apply rank_lt_of_weight
  simp only [Merge.pending, Option.toList_some, totalWeight_append, totalWeight_cons] at *
  omega

end Merge.Ahead

/-! ## Runs -/

/-- **Step lemma.** Every round keeps the invariant and lowers the rank. -/
theorem Merge.Ahead.round (h : Ahead v networks currentNet) (choice : Nat) :
    let s : Merge := ⟨networks, ipsDone, some currentNet⟩
    (s.round choice currentNet).Going v ∧ (s.round choice currentNet).rank < s.rank := by
  intro s
  have hweight := weight_pos currentNet
  simp only [s, Merge.round]
  cases hpoll : poll choice networks with
  -- the last network is done
  | none =>
      refine ⟨fun c hc => by simp [finish] at hc, rank_lt_of_weight ?_⟩
      simp only [finish, pending, Option.toList_none, Option.toList_some, totalWeight_append,
        totalWeight_cons]
      omega
  | some polled =>
      obtain ⟨nextNet, rest⟩ := polled
      have hperm : networks.Perm (nextNet :: rest) := perm_of_poll hpoll
      have hall : Ahead v (nextNet :: rest) currentNet :=
        h.of_subset fun q hq => hperm.mem_iff.2 hq
      have hsum := totalWeight_perm hperm
      have hnextWeight := weight_pos nextNet
      simp only
      split
      · -- the current network is done
        refine ⟨fun c hc => ?_, rank_lt_of_weight ?_⟩
        · obtain rfl : nextNet = c := Option.some.inj hc
          exact h.next hpoll
        · simp only [finish, pending, Option.toList_some, totalWeight_append, totalWeight_cons] at *
          omega
      next hreach =>
        rw [getLastAddress_eq, getFirstAddress_eq, not_lt] at hreach
        split
        -- the polled network starts at the same address and is no smaller: merged, or it is split
        next hsame =>
          obtain ⟨hfirst, hmask⟩ := hsame
          rw [getFirstAddress_eq, getFirstAddress_eq] at hfirst
          by_cases hflag : currentNet.included = nextNet.included
          · rw [mergeSameBase, if_pos hflag]
            refine ⟨fun c hc => ?_, rank_lt_of_weight ?_⟩
            · obtain rfl : nextNet = c := Option.some.inj hc
              exact h.next hpoll
            · simp only [pending, Option.toList_some, totalWeight_append, totalWeight_cons] at *
              omega
          · rw [mergeSameBase_networks hflag rfl]
            refine ⟨fun c hc => ?_, hall.splitNext_rank hfirst hmask hperm⟩
            obtain rfl : currentNet = c := Option.some.inj hc
            exact hall.splitNext hfirst hmask
        -- the polled network lies inside: merged, or the current one is split
        next hlarger =>
          rw [getFirstAddress_eq, getFirstAddress_eq] at hlarger
          by_cases hflag : currentNet.included = nextNet.included
          · rw [mergeInside, if_pos hflag]
            refine ⟨fun c hc => ?_, rank_lt_of_weight ?_⟩
            · obtain rfl : currentNet = c := Option.some.inj hc
              exact hall.of_subset fun q hq => List.mem_cons_of_mem _ hq
            · simp only [pending, Option.toList_some, totalWeight_append, totalWeight_cons] at *
              omega
          · have hpos := hall.current_pos hreach hlarger
            rw [mergeInside_networks hflag rfl]
            refine ⟨fun c hc => ?_, hall.splitCurrent_rank hpos hperm⟩
            obtain rfl : currentNet.firstHalf = c := Option.some.inj hc
            exact hall.splitCurrent

theorem Merge.Going.loop {s : Merge} (h : s.Going v) (choices : Nat → Nat) :
    ∃ rounds ips, Merge.loop ((List.range rounds).map choices) s = some ips := by
  induction hrank : s.rank using WellFoundedLT.induction generalizing s choices with
  | ind rank ih =>
      obtain ⟨networks, ipsDone, currentNet⟩ := s
      cases currentNet with
      | none => exact ⟨0, ipsDone, rfl⟩
      | some currentNet =>
          obtain ⟨hgoing, hlt⟩ := (h currentNet rfl).round (choices 0)
          rw [hrank] at hlt
          -- the later rounds take the later choices
          obtain ⟨rounds, ips, hips⟩ := ih _ hlt hgoing (fun i => choices (i + 1)) rfl
          refine ⟨rounds + 1, ips, ?_⟩
          rw [List.range_succ_eq_map, List.map_cons, List.map_map]
          exact hips

theorem start_going {nets : List IpAddress} (hfamily : ∀ a ∈ nets, a.OfFamily v) (choice : Nat) :
    (Merge.start choice nets).Going v := by
  intro currentNet hcurrent
  rw [Merge.start] at hcurrent ⊢
  cases hpoll : poll choice nets with
  | none => simp [hpoll] at hcurrent
  | some polled =>
      obtain ⟨a, rest⟩ := polled
      rw [hpoll] at hcurrent
      obtain rfl : a = currentNet := Option.some.inj hcurrent
      have hmem : ∀ b ∈ a :: rest, b ∈ nets := fun b hb => (perm_of_poll hpoll).mem_iff.2 hb
      exact {
        family := fun b hb => hfamily b (hmem b hb)
        first := fun _ hq => (poll_least hpoll hq).1
        fits := fun _ hq hfirst hlt => absurd ((poll_least hpoll hq).2 hfirst) (not_le.2 hlt) }

/-- The loop ends for networks of one family, whatever their prefix lengths. -/
theorem generateIPList_ends_of_family {nets : List IpAddress} (hfamily : ∀ a ∈ nets, a.OfFamily v)
    (choice : Nat) (choices : Nat → Nat) :
    ∃ rounds ips, generateIPList choice ((List.range rounds).map choices) nets = some ips :=
  (start_going hfamily choice).loop choices

/-- **The computation of routes ends.** For networks of one address family with valid prefix
lengths, and for every order in which the queue returns equal networks, `generateIPList` has its
result after finitely many rounds. -/
theorem generateIPList_ends {isV4 : Bool} {nets : List IpAddress}
    (hvalid : ∀ a ∈ nets, Valid isV4 a) (choice : Nat) (choices : Nat → Nat) :
    ∃ rounds ips, generateIPList choice ((List.range rounds).map choices) nets = some ips :=
  generateIPList_ends_of_family (fun a ha => (hvalid a ha).1) choice choices

/-- In this run `192.168.1.2/32` comes up with either flag, and is split although it is one
address. -/
theorem generateIPList_ends_host :
    ∃ rounds ips, generateIPList 0 ((List.range rounds).map fun _ => 0)
      [⟨0xC0A80100, 30, true, true⟩, ⟨0xC0A80101, 32, false, true⟩,
        ⟨0xC0A80102, 31, false, true⟩] = some ips :=
  @generateIPList_ends true _ (by unfold Valid; decide) 0 _

end PortVpn.Net
