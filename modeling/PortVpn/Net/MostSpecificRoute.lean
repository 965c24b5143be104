import Mathlib.Data.List.MinMax
import Mathlib.Data.List.Pairwise
import Mathlib.Data.Prod.Lex
import PortVpn.Net.NetworkSpace

/-!
# The most specific route

`generateIPList` should give every address the flag of the smallest network around it.
`generateIPList_mostSpecific` shows that it does in every run that avoids two steps: `Drops`, the
removal of a network that an excluded or included network of another size shields from the current
one, and `Collides`, the queueing of half a network under the key of a queued network with the
other flag. `generateIPList_counterexample` is a run with such a step.
-/

set_option autoImplicit false

namespace PortVpn.Net

open PortVpn.Lib

namespace IpAddress

/-! ## Networks as blocks -/

/-- The addresses of a network. -/
def block (a : IpAddress) : Block := ⟨a.numBits, a.netAddress / 2 ^ a.numBits⟩

theorem clearBits (n : Int) (k : Nat) :
    (List.range k).foldl clearBit n = n / 2 ^ k * 2 ^ k := by
  induction k with
  | zero => simp
  | succ k ih =>
      rw [List.range_succ, List.foldl_append, ih]
      have hpos : (0 : Int) < 2 ^ k := by positivity
      have hquot : n / 2 ^ (k + 1) = n / 2 ^ k / 2 := by
        rw [pow_succ, Int.ediv_ediv_of_nonneg hpos.le]
      simp only [List.foldl_cons, List.foldl_nil, clearBit]
      rw [Int.mul_ediv_cancel _ hpos.ne', hquot, pow_succ]
      generalize n / 2 ^ k = m
      split
      · have : m = m / 2 * 2 + 1 := by omega
        calc m * 2 ^ k - 2 ^ k = (m / 2 * 2 + 1) * 2 ^ k - 2 ^ k := by rw [← this]
          _ = m / 2 * (2 ^ k * 2) := by ring
      · have : m = m / 2 * 2 := by omega
        calc m * 2 ^ k = m / 2 * 2 * 2 ^ k := by rw [← this]
          _ = m / 2 * (2 ^ k * 2) := by ring

theorem setBits (n : Int) (k : Nat) :
    (List.range k).foldl setBit n = n / 2 ^ k * 2 ^ k + 2 ^ k - 1 := by
  induction k with
  | zero => simp
  | succ k ih =>
      rw [List.range_succ, List.foldl_append, ih]
      have hpos : (0 : Int) < 2 ^ k := by positivity
      have hquot : n / 2 ^ (k + 1) = n / 2 ^ k / 2 := by
        rw [pow_succ, Int.ediv_ediv_of_nonneg hpos.le]
      simp only [List.foldl_cons, List.foldl_nil, setBit]
      have hself : (n / 2 ^ k * 2 ^ k + 2 ^ k - 1) / 2 ^ k = n / 2 ^ k := by
        rw [Int.ediv_eq_iff_of_pos hpos]
        omega
      rw [hself, hquot, pow_succ]
      generalize n / 2 ^ k = m
      split
      · have : m = m / 2 * 2 + 1 := by omega
        calc m * 2 ^ k + 2 ^ k - 1 = (m / 2 * 2 + 1) * 2 ^ k + 2 ^ k - 1 := by rw [← this]
          _ = m / 2 * (2 ^ k * 2) + 2 ^ k * 2 - 1 := by ring
      · have : m = m / 2 * 2 := by omega
        calc m * 2 ^ k + 2 ^ k - 1 + 2 ^ k = m / 2 * 2 * 2 ^ k + 2 ^ k - 1 + 2 ^ k := by
              rw [← this]
          _ = m / 2 * (2 ^ k * 2) + 2 ^ k * 2 - 1 := by ring

@[simp] theorem getFirstAddress_eq (a : IpAddress) : a.getFirstAddress = a.block.first :=
  clearBits a.netAddress a.numBits

@[simp] theorem getLastAddress_eq (a : IpAddress) : a.getLastAddress = a.block.last :=
  setBits a.netAddress a.numBits

theorem block_eq_of_mem {a : IpAddress} {b : Block} (hlevel : a.numBits = b.level)
    (hmem : a.netAddress ∈ b) : a.block = b :=
  Block.eq_of_mem (x := a.netAddress) (Block.mem_def.2 rfl) hmem hlevel

/-- The bits of an address. -/
def width (isV4 : Bool) : Nat := if isV4 then 32 else 128

/-- A network of the address family, with its prefix length in range. -/
def Valid (isV4 : Bool) (a : IpAddress) : Prop :=
  a.isV4 = isV4 ∧ 0 ≤ a.networkMask ∧ a.networkMask ≤ width isV4

variable {v : Bool} {a b : IpAddress}

/-- A network of the address family whose prefix is no longer than an address. -/
def Fits (isV4 : Bool) (a : IpAddress) : Prop := a.isV4 = isV4 ∧ a.networkMask ≤ width isV4

theorem Valid.fits (h : Valid v a) : Fits v a := ⟨h.1, h.2.2⟩

theorem Fits.numBits_eq (h : Fits v a) : (a.numBits : Int) = width v - a.networkMask := by
  obtain ⟨rfl, hmask⟩ := h
  rw [numBits, width] at *
  cases hv : a.isV4 <;> simp_all

theorem Valid.numBits_eq (h : Valid v a) : (a.numBits : Int) = width v - a.networkMask :=
  h.fits.numBits_eq

theorem Valid.mask_le_iff (ha : Valid v a) (hb : Valid v b) :
    a.networkMask ≤ b.networkMask ↔ b.block.level ≤ a.block.level := by
  have h₁ := ha.numBits_eq
  have h₂ := hb.numBits_eq
  show _ ↔ b.numBits ≤ a.numBits
  omega

/-- The order of the queue: by first address, and smaller networks before larger ones. -/
def Before (a b : IpAddress) : Prop :=
  a.block.first < b.block.first ∨ a.block.first = b.block.first ∧ a.block.level ≤ b.block.level

theorem Valid.compareTo_ne_lt_iff (ha : Valid v a) (hb : Valid v b) :
    b.compareTo a ≠ .lt ↔ Before a b := by
  rw [Before, ← hb.mask_le_iff ha, compareTo, getFirstAddress_eq, getFirstAddress_eq]
  rcases lt_trichotomy b.block.first a.block.first with h | h | h
  · simp [compare_lt_iff_lt.2 h, h.not_gt, h.ne']
  · rw [compare_eq_iff_eq.2 h]
    rcases lt_trichotomy b.networkMask a.networkMask with hm | hm | hm
    · simp [h, hm.not_gt, hm.ne', hm.le]
    · simp [h, hm]
    · simp [h, hm, hm.not_ge]
  · simp [compare_gt_iff_gt.2 h, h]

theorem compareTo_of_first_lt (h : b.block.first < a.block.first) : a.compareTo b = .gt := by
  rw [compareTo, getFirstAddress_eq, getFirstAddress_eq, compare_gt_iff_gt.2 h]

/-- Networks of one family are equal for the queue when they have the same addresses. -/
theorem Valid.equals_iff (ha : Valid v a) (hb : Valid v b) :
    a.equals b ↔ a.block = b.block := by
  have h₁ := ha.numBits_eq
  have h₂ := hb.numBits_eq
  simp only [equals, getFirstAddress_eq, Bool.and_eq_true, beq_iff_eq]
  constructor
  · rintro ⟨hmask, hfirst⟩
    refine Block.ext_first ?_ hfirst.symm
    show a.numBits = b.numBits
    omega
  · intro h
    have hlevel : a.numBits = b.numBits := congrArg Block.level h
    exact ⟨by omega, by rw [h]⟩

/-! ## Halves -/

theorem Fits.pos_iff (h : Fits v a) : 0 < a.block.level ↔ a.networkMask < width v := by
  have := h.numBits_eq
  show 0 < a.numBits ↔ _
  omega

section Halves

variable (hpos : 0 < a.block.level)
include hpos

theorem Fits.firstHalf (h : Fits v a) : Fits v a.firstHalf :=
  ⟨h.1, Int.add_one_le_of_lt (h.pos_iff.1 hpos)⟩

theorem Fits.secondHalf (h : Fits v a) : Fits v a.secondHalf :=
  ⟨h.1, Int.add_one_le_of_lt (h.pos_iff.1 hpos)⟩

theorem Valid.firstHalf (h : Valid v a) : Valid v a.firstHalf :=
  ⟨h.1, Int.add_nonneg h.2.1 (by decide), (h.fits.firstHalf hpos).2⟩

theorem Valid.secondHalf (h : Valid v a) : Valid v a.secondHalf :=
  ⟨h.1, Int.add_nonneg h.2.1 (by decide), (h.fits.secondHalf hpos).2⟩

theorem Fits.firstHalf_block (h : Fits v a) : a.firstHalf.block = a.block.lower := by
  have h₁ := (h.firstHalf hpos).numBits_eq
  have h₂ := h.numBits_eq
  refine block_eq_of_mem ?_ ?_
  · show _ = a.numBits - 1
    simp only [IpAddress.firstHalf] at h₁ ⊢
    omega
  · show a.getFirstAddress ∈ _
    rw [getFirstAddress_eq, ← Block.lower_first hpos]
    exact Block.first_mem _

theorem Fits.secondHalf_block (h : Fits v a) : a.secondHalf.block = a.block.upper := by
  have h₁ := (h.secondHalf hpos).numBits_eq
  have h₂ := h.numBits_eq
  refine block_eq_of_mem ?_ ?_
  · show _ = a.numBits - 1
    simp only [IpAddress.secondHalf] at h₁ ⊢
    omega
  · show a.firstHalf.getLastAddress + 1 ∈ _
    rw [getLastAddress_eq, h.firstHalf_block hpos, ← Block.upper_first]
    exact Block.first_mem _

theorem Valid.firstHalf_block (h : Valid v a) : a.firstHalf.block = a.block.lower :=
  h.fits.firstHalf_block hpos

theorem Valid.secondHalf_block (h : Valid v a) : a.secondHalf.block = a.block.upper :=
  h.fits.secondHalf_block hpos

end Halves

/-- The network holds the address. -/
def Holds (a : IpAddress) (x : Int) : Prop := a.getFirstAddress ≤ x ∧ x ≤ a.getLastAddress

instance (a : IpAddress) (x : Int) : Decidable (a.Holds x) := by
  rw [Holds]
  infer_instance

theorem holds_iff {x : Int} : a.Holds x ↔ x ∈ a.block := by
  rw [Holds, getFirstAddress_eq, getLastAddress_eq, Block.mem_iff]

end IpAddress

/-! ## The priority queue -/

section Queue

open IpAddress

variable {v : Bool} {choice : Nat} {networks rest : List IpAddress} {a b : IpAddress}

theorem mem_least : a ∈ least networks ↔ a ∈ networks ∧ ∀ b ∈ networks, b.compareTo a ≠ .lt := by
  simp [least]

theorem poll_some (h : poll choice networks = some (a, rest)) :
    a ∈ least networks ∧ rest = networks.erase a := by
  obtain ⟨b, hb, heq⟩ := Option.map_eq_some_iff.1 h
  obtain ⟨rfl, rfl⟩ := Prod.ext_iff.1 heq
  exact ⟨List.mem_of_getElem? hb, rfl⟩

theorem perm_of_poll (h : poll choice networks = some (a, rest)) : networks.Perm (a :: rest) := by
  obtain ⟨ha, rfl⟩ := poll_some h
  exact List.perm_cons_erase (mem_least.1 ha).1

/-- The polled network comes before all that are left. -/
theorem poll_before (hvalid : ∀ a ∈ networks, Valid v a)
    (h : poll choice networks = some (a, rest)) : ∀ b ∈ rest, Before a b := by
  intro b hb
  have hmem : b ∈ networks := (perm_of_poll h).mem_iff.2 (List.mem_cons_of_mem _ hb)
  obtain ⟨ha, hleast⟩ := mem_least.1 (poll_some h).1
  exact ((hvalid a ha).compareTo_ne_lt_iff (hvalid b hmem)).1 (hleast b hmem)

/-- A queue that is not empty has a least network. -/
theorem exists_mem_least (hvalid : ∀ a ∈ networks, Valid v a) (hne : networks ≠ []) :
    ∃ a, a ∈ least networks := by
  let key : IpAddress → Int ×ₗ Nat := fun a => toLex (a.block.first, a.block.level)
  obtain ⟨a, ha⟩ := Option.ne_none_iff_exists'.1 (mt (List.argmin_eq_none (f := key)).1 hne)
  have hmem : a ∈ networks := List.argmin_mem ha
  refine ⟨a, mem_least.2 ⟨hmem, fun b hb => ?_⟩⟩
  rw [(hvalid a hmem).compareTo_ne_lt_iff (hvalid b hb)]
  exact Prod.Lex.toLex_le_toLex.1 (List.le_of_mem_argmin (f := key) hb ha)

theorem poll_eq_none (hvalid : ∀ a ∈ networks, Valid v a) (h : poll choice networks = none) :
    networks = [] := by
  by_contra hne
  obtain ⟨a, ha⟩ := exists_mem_least hvalid hne
  have hpos := List.length_pos_of_mem ha
  have hnone := List.getElem?_eq_none_iff.1 (Option.map_eq_none_iff.1 h)
  exact absurd (Nat.mod_lt choice hpos) (by omega)

end Queue

/-! ## The statement -/

/-- The networks of a `NetworkSpace`: of one address family, with distinct keys. -/
structure Networks (isV4 : Bool) where
  nets : List IpAddress
  valid : ∀ a ∈ nets, a.Valid isV4
  distinct : nets.Pairwise fun a b =>
    ¬ (a.getFirstAddress = b.getFirstAddress ∧ a.networkMask = b.networkMask)

/-- The network with the longest prefix around the address has the flag. -/
def MostSpecific (nets : List IpAddress) (x : Int) (f : Bool) : Prop :=
  ∃ a ∈ nets, a.Holds x ∧ a.included = f ∧ ∀ b ∈ nets, b.Holds x → b.networkMask ≤ a.networkMask

instance (nets : List IpAddress) (x : Int) (f : Bool) : Decidable (MostSpecific nets x f) := by
  rw [MostSpecific]
  infer_instance

/-- The disjoint networks that give every address the flag of the most specific network. -/
structure Resolves (nets out : List IpAddress) : Prop where
  disjoint : out.Pairwise fun a b => ∀ x, a.Holds x → ¬ b.Holds x
  flags : ∀ x f, (∃ a ∈ out, a.Holds x ∧ a.included = f) ↔ MostSpecific nets x f

namespace Merge

/-- The next network starts inside the current one and after its first address. -/
def Inside (currentNet nextNet : IpAddress) : Prop :=
  currentNet.getFirstAddress < nextNet.getFirstAddress ∧
    nextNet.getFirstAddress ≤ currentNet.getLastAddress

/-- The round forgets the next network although the smallest queued network from the same address
on, which lies between it and the current one, has the other flag. -/
def Drops (s : Merge) (choice : Nat) : Prop :=
  ∃ currentNet ∈ s.currentNet, ∃ polled ∈ poll choice s.networks,
    Inside currentNet polled.1 ∧ currentNet.included = polled.1.included ∧
      ∃ m ∈ polled.2, m.getFirstAddress = polled.1.getFirstAddress ∧
        m.included ≠ polled.1.included ∧
          ∀ m' ∈ polled.2, m'.getFirstAddress = polled.1.getFirstAddress →
            m'.networkMask ≤ m.networkMask

/-- The round queues the second half of the current network although that network is queued with
the other flag. -/
def Collides (s : Merge) (choice : Nat) : Prop :=
  ∃ currentNet ∈ s.currentNet, ∃ polled ∈ poll choice s.networks,
    Inside currentNet polled.1 ∧ currentNet.included ≠ polled.1.included ∧
      currentNet.secondHalf.networkMask ≠ polled.1.networkMask ∧
        ∃ m ∈ polled.2, currentNet.secondHalf.equals m ∧ m.included ≠ currentNet.included

end Merge

/-! ## The invariant -/

section Invariant

open IpAddress

/-- The networks as a table of flags. -/
def table (nets : List IpAddress) : List (Block × Bool) :=
  nets.map fun a => (a.block, a.included)

variable {v : Bool} {nets : List IpAddress} {a b : IpAddress} {x : Int} {f : Bool}

theorem mem_table {e : Block × Bool} : e ∈ table nets ↔ ∃ a ∈ nets, (a.block, a.included) = e :=
  List.mem_map

theorem entry_mem_table (h : a ∈ nets) : (a.block, a.included) ∈ table nets :=
  mem_table.2 ⟨a, h, rfl⟩

theorem mostSpecific_iff (hvalid : ∀ a ∈ nets, Valid v a) :
    MostSpecific nets x f ↔ Lookup (table nets) x f := by
  constructor
  · rintro ⟨a, ha, hx, rfl, hmin⟩
    refine ⟨_, ⟨entry_mem_table ha, holds_iff.1 hx, fun g hg hgx => ?_⟩, rfl⟩
    obtain ⟨b, hb, rfl⟩ := mem_table.1 hg
    exact ((hvalid b hb).mask_le_iff (hvalid a ha)).1 (hmin b hb (holds_iff.2 hgx))
  · rintro ⟨e, ⟨he, hx, hmin⟩, rfl⟩
    obtain ⟨a, ha, rfl⟩ := mem_table.1 he
    refine ⟨a, ha, holds_iff.2 hx, rfl, fun b hb hbx => ?_⟩
    exact ((hvalid b hb).mask_le_iff (hvalid a ha)).2 (hmin _ (entry_mem_table hb) (holds_iff.1 hbx))

theorem table_append (nets nets' : List IpAddress) :
    table (nets ++ nets') = table nets ++ table nets' := List.map_append

theorem table_perm {nets' : List IpAddress} (h : nets.Perm nets') :
    Lookup (table nets) x f ↔ Lookup (table nets') x f :=
  lookup_congr fun _ => (h.map _).mem_iff

theorem table_swap : Lookup (table (a :: b :: nets)) x f ↔ Lookup (table (b :: a :: nets)) x f :=
  table_perm (List.Perm.swap _ _ _)

/-- Networks without a key in common that has two flags. -/
theorem consistent_iff : Consistent (table nets) ↔
    ∀ a ∈ nets, ∀ b ∈ nets, a.block = b.block → a.included = b.included := by
  simp only [Consistent, table, List.forall_mem_map]

/-- The networks that are not done yet. -/
def Merge.pending (s : Merge) : List IpAddress := s.currentNet.toList ++ s.networks

/-- What the loop keeps: the networks that are done lie before all others, and an address has the
flag of a network that is done or the flag of the smallest network that is not. -/
structure Inv (isV4 : Bool) (orig : List IpAddress) (s : Merge) : Prop where
  valid : ∀ a ∈ s.pending, Valid isV4 a
  consistent : Consistent (table s.pending)
  before : ∀ c ∈ s.currentNet, ∀ b ∈ s.networks, Before c b
  ended : s.currentNet = none → s.networks = []
  done : ∀ d ∈ s.ipsDone, ∀ a ∈ s.pending, d.block.last < a.block.first
  sorted : s.ipsDone.Pairwise fun d e => d.block.last < e.block.first
  lookup : ∀ x f, MostSpecific orig x f ↔
    (∃ d ∈ s.ipsDone, d.Holds x ∧ d.included = f) ∨ Lookup (table s.pending) x f

variable {orig networks rest : List IpAddress} {ipsDone : List IpAddress}
  {currentNet nextNet : IpAddress}

/-- The nodes of the tree of halves below a network. -/
def IpAddress.weight (a : IpAddress) : Nat := 2 ^ (a.block.level + 1) - 1

def totalWeight (nets : List IpAddress) : Nat := (nets.map weight).sum

@[simp] theorem totalWeight_cons (a : IpAddress) (nets : List IpAddress) :
    totalWeight (a :: nets) = a.weight + totalWeight nets := by
  simp [totalWeight]

@[simp] theorem totalWeight_append (nets nets' : List IpAddress) :
    totalWeight (nets ++ nets') = totalWeight nets + totalWeight nets' := by
  simp [totalWeight]

theorem totalWeight_perm {nets' : List IpAddress} (h : nets.Perm nets') :
    totalWeight nets = totalWeight nets' := (h.map _).sum_nat

theorem weight_pos (a : IpAddress) : 0 < a.weight := by
  have : 2 ≤ 2 ^ (a.block.level + 1) := Nat.le_pow (Nat.succ_pos _) |>.trans (le_refl _)
  rw [weight]
  omega

/-- Two networks of the next lower level weigh less than one. -/
theorem weight_halves {c : IpAddress} (hpos : 0 < a.block.level)
    (hb : b.block.level = a.block.level - 1) (hc : c.block.level = a.block.level - 1) :
    b.weight + c.weight < a.weight := by
  obtain ⟨n, hn⟩ : ∃ n, a.block.level = n + 1 := ⟨a.block.level - 1, by omega⟩
  have : 0 < 2 ^ n := by positivity
  simp only [weight, hb, hc, hn, pow_succ, Nat.add_sub_cancel]
  omega

/-- The networks that are not done are rearranged around a current one. -/
structure Rearranged (isV4 : Bool) (old : List IpAddress) (currentNet : IpAddress)
    (networks : List IpAddress) : Prop where
  valid : ∀ a ∈ currentNet :: networks, Valid isV4 a
  consistent : Consistent (table (currentNet :: networks))
  before : ∀ b ∈ networks, Before currentNet b
  first : ∀ a ∈ currentNet :: networks, ∃ b ∈ old, b.block.first ≤ a.block.first
  lookup : ∀ x f, Lookup (table old) x f ↔ Lookup (table (currentNet :: networks)) x f
  lighter : totalWeight (currentNet :: networks) < totalWeight old

theorem Rearranged.perm {old old' : List IpAddress} (h : Rearranged v old currentNet networks)
    (hperm : old'.Perm old) : Rearranged v old' currentNet networks where
  valid := h.valid
  consistent := h.consistent
  before := h.before
  first := fun a ha => by
    obtain ⟨b, hb, hle⟩ := h.first a ha
    exact ⟨b, hperm.mem_iff.2 hb, hle⟩
  lookup := fun x f => (table_perm hperm).trans (h.lookup x f)
  lighter := totalWeight_perm hperm ▸ h.lighter

/-- A round that only rearranges the networks that are not done. -/
theorem Inv.rearrange {s : Merge} (h : Inv v orig s)
    (hr : Rearranged v s.pending currentNet networks) :
    let s' : Merge := ⟨networks, s.ipsDone, some currentNet⟩
    Inv v orig s' ∧ totalWeight s'.pending < totalWeight s.pending := by
  refine ⟨?_, hr.lighter⟩
  exact {
    valid := hr.valid
    consistent := hr.consistent
    before := fun c hc => by
      obtain rfl : currentNet = c := by simpa using hc
      exact hr.before
    ended := fun hnone => by simp at hnone
    done := fun d hd a ha => by
      obtain ⟨b, hb, hle⟩ := hr.first a ha
      exact lt_of_lt_of_le (h.done d hd b hb) hle
    sorted := h.sorted
    lookup := fun x f => by
      rw [h.lookup, hr.lookup]
      rfl }

theorem contains_iff (ha : Valid v a) (hvalid : ∀ b ∈ networks, Valid v b) :
    contains networks a ↔ ∃ b ∈ networks, a.block = b.block := by
  rw [contains, List.any_eq_true]
  constructor
  · rintro ⟨b, hb, heq⟩
    exact ⟨b, hb, (ha.equals_iff (hvalid b hb)).1 heq⟩
  · rintro ⟨b, hb, heq⟩
    exact ⟨b, hb, (ha.equals_iff (hvalid b hb)).2 heq⟩

/-- Networks that are only left out. -/
theorem Rearranged.of_subset {old : List IpAddress} (hvalid : ∀ a ∈ old, Valid v a)
    (hcons : Consistent (table old)) (hsub : ∀ a ∈ currentNet :: networks, a ∈ old)
    (hbefore : ∀ b ∈ networks, Before currentNet b)
    (hlookup : ∀ x f, Lookup (table old) x f ↔ Lookup (table (currentNet :: networks)) x f)
    (hlighter : totalWeight (currentNet :: networks) < totalWeight old) :
    Rearranged v old currentNet networks where
  valid := fun a ha => hvalid a (hsub a ha)
  consistent := hcons.subset fun e he => by
    obtain ⟨a, ha, rfl⟩ := mem_table.1 he
    exact entry_mem_table (hsub a ha)
  before := hbefore
  first := fun a ha => ⟨a, hsub a ha, le_refl _⟩
  lookup := hlookup
  lighter := hlighter

/-- What may take the place of a network: halves of it with its flag, none of which clashes with
another network, and together with the others all of it. -/
structure Halves (isV4 : Bool) (a : IpAddress) (others news : List IpAddress) : Prop where
  valid : ∀ b ∈ news, Valid isV4 b
  half : ∀ b ∈ news, b.block = a.block.lower ∨ b.block = a.block.upper
  flag : ∀ b ∈ news, b.included = a.included
  clash : ∀ b ∈ news, ∀ g ∈ others, b.block = g.block → b.included = g.included
  lower : ∃ b ∈ news ++ others, b.block = a.block.lower
  upper : ∃ b ∈ news ++ others, b.block = a.block.upper
  lighter : totalWeight news < a.weight

/-- One of the networks gives way to its halves. -/
theorem Rearranged.of_halves {old others news : List IpAddress}
    (hvalid : ∀ b ∈ old, Valid v b) (hcons : Consistent (table old))
    (hold : old.Perm (a :: others)) (hpos : 0 < a.block.level) (hnews : Halves v a others news)
    (hout : (news ++ others).Perm (currentNet :: networks))
    (hbefore : ∀ b ∈ networks, Before currentNet b) :
    Rearranged v old currentNet networks := by
  have hothers : ∀ b ∈ others, b ∈ old := fun b hb => hold.mem_iff.2 (List.mem_cons_of_mem _ hb)
  have htable : Consistent (table (a :: others)) :=
    hcons.subset fun e he => ((hold.map _).mem_iff).2 he
  have hmixed : Consistent (table news ++ table others) := by
    apply Consistent.append
    · apply consistent_iff.2
      intro b hb g hg _
      rw [hnews.flag b hb, hnews.flag g hg]
    · exact htable.subset fun e he => List.mem_cons_of_mem _ he
    · intro e he f hf heq
      obtain ⟨b, hb, rfl⟩ := mem_table.1 he
      obtain ⟨g, hg, rfl⟩ := mem_table.1 hf
      exact hnews.clash b hb g hg heq
  have hentry : ∀ b ∈ news ++ others, (b.block, b.included) ∈ table news ++ table others := by
    intro b hb
    rw [← table_append]
    exact entry_mem_table hb
  constructor
  case valid =>
    intro b hb
    rcases List.mem_append.1 (hout.mem_iff.2 hb) with hb | hb
    · exact hnews.valid b hb
    · exact hvalid b (hothers b hb)
  case consistent =>
    apply hmixed.subset
    intro e he
    rw [← table_append]
    exact ((hout.map _).mem_iff).2 he
  case before => exact hbefore
  case first =>
    -- a half starts where the whole starts, or later
    intro b hb
    rcases List.mem_append.1 (hout.mem_iff.2 hb) with hb | hb
    · refine ⟨a, hold.mem_iff.2 List.mem_cons_self, ?_⟩
      rw [← Block.lower_first hpos]
      rcases hnews.half b hb with heq | heq
      · exact (heq ▸ le_refl _)
      · exact heq ▸ (Block.lower_first_lt _).le
    · exact ⟨b, hothers b hb, le_refl _⟩
  case lookup =>
    intro x f
    rw [table_perm hold, ← table_perm hout, table_append]
    apply lookup_split_iff hpos htable hmixed
    · intro e he
      obtain ⟨b, hb, rfl⟩ := mem_table.1 he
      exact ⟨hnews.half b hb, hnews.flag b hb⟩
    · obtain ⟨b, hb, heq⟩ := hnews.lower
      exact ⟨_, hentry b hb, heq⟩
    · obtain ⟨b, hb, heq⟩ := hnews.upper
      exact ⟨_, hentry b hb, heq⟩
  case lighter =>
    have hless := hnews.lighter
    rw [totalWeight_perm hold, ← totalWeight_perm hout, totalWeight_append, totalWeight_cons]
    omega

/-- What `addNew` queues. -/
def queued (a : IpAddress) (networks : List IpAddress) : List IpAddress :=
  if contains networks a then [] else [a]

theorem addNew_eq (a : IpAddress) (networks : List IpAddress) :
    addNew a networks = queued a networks ++ networks := by
  rw [addNew, queued]
  split <;> rfl

theorem mem_queued : b ∈ queued a networks ↔ b = a ∧ ¬ contains networks a := by
  rw [queued]
  split <;> simp_all

/-- Afterwards the network or one with its key is queued. -/
theorem exists_mem_addNew (ha : Valid v a) (hvalid : ∀ b ∈ networks, Valid v b) :
    ∃ b ∈ addNew a networks, b.block = a.block := by
  rw [addNew]
  split
  next hin =>
    obtain ⟨b, hb, heq⟩ := (contains_iff ha hvalid).1 hin
    exact ⟨b, hb, heq.symm⟩
  next => exact ⟨a, List.mem_cons_self, rfl⟩

/-- What is known of the current network, the polled one and the others when they overlap. -/
structure Polled (isV4 : Bool) (currentNet nextNet : IpAddress) (rest : List IpAddress) : Prop where
  valid : ∀ a ∈ currentNet :: nextNet :: rest, Valid isV4 a
  consistent : Consistent (table (currentNet :: nextNet :: rest))
  current_before : Before currentNet nextNet
  next_before : ∀ b ∈ rest, Before nextNet b
  overlap : nextNet.block.first ≤ currentNet.block.last

namespace Polled

variable (h : Polled v currentNet nextNet rest)
include h

theorem next_first_mem : nextNet.block.first ∈ currentNet.block := by
  refine Block.mem_iff.2 ⟨?_, h.overlap⟩
  rcases h.current_before with hlt | ⟨heq, -⟩
  · exact hlt.le
  · exact heq.le

theorem first_le : ∀ b ∈ rest, nextNet.block.first ≤ b.block.first := fun b hb => by
  rcases h.next_before b hb with hlt | ⟨heq, -⟩
  · exact hlt.le
  · exact heq.le

/-- A network that is left and holds the first address of the polled one starts there. -/
theorem first_eq {b : IpAddress} (hb : b ∈ rest) (hmem : nextNet.block.first ∈ b.block) :
    b.block.first = nextNet.block.first ∧ nextNet.block.level ≤ b.block.level := by
  have hle := (Block.mem_iff.1 hmem).1
  rcases h.next_before b hb with hlt | ⟨heq, hlevel⟩
  · omega
  · exact ⟨heq.symm, hlevel⟩

/-- A polled network that starts later than the current one is smaller. -/
theorem level_lt (hlt : currentNet.block.first < nextNet.block.first) :
    nextNet.block.level < currentNet.block.level := by
  by_contra hcon
  have := Block.first_le_of_nested h.next_first_mem nextNet.block.first_mem (not_lt.1 hcon)
  omega

/-- The current network is forgotten in the polled one of its flag. -/
theorem forget (hfirst : currentNet.block.first = nextNet.block.first)
    (hlevel : currentNet.block.level ≤ nextNet.block.level)
    (hflag : currentNet.included = nextNet.included) (x : Int) (f : Bool) :
    Lookup (table (currentNet :: nextNet :: rest)) x f ↔ Lookup (table (nextNet :: rest)) x f := by
  have hentry : (nextNet.block, nextNet.included) ∈ table (nextNet :: rest) :=
    entry_mem_table (by simp)
  refine lookup_drop_iff (h.consistent.subset fun e he => List.mem_cons_of_mem _ he) hentry ?_
    hflag.symm ?_
  · exact fun y hy => Block.nested h.next_first_mem nextNet.block.first_mem hlevel hy
  · intro g hg _ hmem
    obtain ⟨b, hb, rfl⟩ := mem_table.1 hg
    rcases List.mem_cons.1 hb with rfl | hb
    · exact le_refl _
    · rw [show (currentNet.block, currentNet.included).1.first = nextNet.block.first from hfirst]
        at hmem
      exact (h.first_eq hb hmem).2

/-- The polled network is forgotten in the current one, unless a larger queued network with the
other flag starts where it starts. -/
theorem drop (hlt : currentNet.block.first < nextNet.block.first)
    (hflag : currentNet.included = nextNet.included)
    (hclean : ∀ m ∈ rest, m.block.first = nextNet.block.first →
      (∀ m' ∈ rest, m'.block.first = nextNet.block.first → m.block.level ≤ m'.block.level) →
        m.included = nextNet.included) (x : Int) (f : Bool) :
    Lookup (table (currentNet :: nextNet :: rest)) x f ↔
      Lookup (table (currentNet :: rest)) x f := by
  rw [table_swap]
  have hcons : Consistent (table (currentNet :: rest)) := h.consistent.subset fun e he => by
    obtain ⟨a, ha, rfl⟩ := mem_table.1 he
    refine entry_mem_table ?_
    rcases List.mem_cons.1 ha with rfl | ha
    · exact List.mem_cons_self
    · exact List.mem_cons_of_mem _ (List.mem_cons_of_mem _ ha)
  have hlevel := h.level_lt hlt
  -- the networks behind that start at the same address may lie between the two
  let around := rest.filter fun b => b.block.first = nextNet.block.first
  by_cases hne : around = []
  · -- the current network is the next larger one
    have hentry : (currentNet.block, currentNet.included) ∈ table (currentNet :: rest) :=
      entry_mem_table (by simp)
    refine lookup_drop_iff hcons hentry ?_ hflag ?_
    · exact fun y hy => Block.nested nextNet.block.first_mem h.next_first_mem hlevel.le hy
    · intro g hg _ hmem
      obtain ⟨b, hb, rfl⟩ := mem_table.1 hg
      rcases List.mem_cons.1 hb with rfl | hb
      · exact le_refl _
      · have hin : b ∈ around := List.mem_filter.2 ⟨hb, by simpa using (h.first_eq hb hmem).1⟩
        rw [hne] at hin
        simp at hin
  · -- the next larger one starts at the same address
    let level : IpAddress → Nat := fun b => b.block.level
    obtain ⟨m, hm⟩ := Option.ne_none_iff_exists'.1 (mt (List.argmin_eq_none (f := level)).1 hne)
    obtain ⟨hmem, hfirst⟩ := List.mem_filter.1 (List.argmin_mem hm)
    have hfirst : m.block.first = nextNet.block.first := by simpa using hfirst
    have hmin : ∀ m' ∈ rest, m'.block.first = nextNet.block.first →
        m.block.level ≤ m'.block.level := fun m' hm' heq =>
      List.le_of_mem_argmin (f := level) (List.mem_filter.2 ⟨hm', by simpa using heq⟩) hm
    have hnext : nextNet.block.first ∈ m.block := hfirst ▸ m.block.first_mem
    have hentry : (m.block, m.included) ∈ table (currentNet :: rest) :=
      entry_mem_table (List.mem_cons_of_mem _ hmem)
    refine lookup_drop_iff hcons hentry ?_ (hclean m hmem hfirst hmin) ?_
    · exact fun y hy => Block.nested nextNet.block.first_mem hnext (h.first_eq hmem hnext).2 hy
    · intro g hg _ hgmem
      obtain ⟨b, hb, rfl⟩ := mem_table.1 hg
      rcases List.mem_cons.1 hb with rfl | hb
      · by_contra hcon
        have hle : m.block.first ≤ b.block.first :=
          Block.first_le_of_nested hgmem hnext (not_le.1 hcon).le
        omega
      · exact hmin b hb (h.first_eq hb hgmem).1

/-- The halves of the polled network that are queued again. -/
def newHalves (currentNet nextNet : IpAddress) (rest : List IpAddress) : List IpAddress :=
  (if nextNet.firstHalf.getLastAddress = currentNet.getLastAddress then []
    else queued nextNet.firstHalf (addNew nextNet.secondHalf rest)) ++
      queued nextNet.secondHalf rest

omit h in
theorem totalWeight_newHalves (hpos : 0 < nextNet.block.level) (hnext : Fits v nextNet) :
    totalWeight (newHalves currentNet nextNet rest) < nextNet.weight := by
  have hhalves := weight_halves (a := nextNet) (b := nextNet.firstHalf) (c := nextNet.secondHalf)
    hpos (by rw [hnext.firstHalf_block hpos]; rfl) (by rw [hnext.secondHalf_block hpos]; rfl)
  have hqueued : ∀ (a : IpAddress) (l : List IpAddress), totalWeight (queued a l) ≤ a.weight :=
    fun a l => by
      rw [queued]
      split <;> simp [totalWeight]
  have hsecond := hqueued nextNet.secondHalf rest
  rw [newHalves, totalWeight_append]
  split
  · simp only [totalWeight, List.map_nil, List.sum_nil] at *
    omega
  · have hfirst := hqueued nextNet.firstHalf (addNew nextNet.secondHalf rest)
    omega

omit h in
theorem mergeSameBase_networks {s : Merge} (hflag : currentNet.included ≠ nextNet.included)
    (hnet : s.networks = rest) :
    s.mergeSameBase currentNet nextNet =
      ⟨newHalves currentNet nextNet rest ++ rest, s.ipsDone, s.currentNet⟩ := by
  rw [Merge.mergeSameBase, if_neg hflag, newHalves, hnet]
  split
  · rw [addNew_eq, List.nil_append]
  · rw [List.append_assoc, ← addNew_eq, ← addNew_eq]

/-- The halves that are queued again stand for the polled network: a half with the key of another
network is left to that one. -/
theorem halves_newHalves (hfirst : currentNet.block.first = nextNet.block.first)
    (hpos : 0 < nextNet.block.level) :
    Halves v nextNet (currentNet :: rest) (newHalves currentNet nextNet rest) := by
  have hnext : Valid v nextNet := h.valid _ (by simp)
  have hrest : ∀ b ∈ rest, Valid v b := fun b hb => h.valid b (by simp [hb])
  have hfh := hnext.firstHalf hpos
  have hsh := hnext.secondHalf hpos
  have hfb := hnext.firstHalf_block hpos
  have hsb := hnext.secondHalf_block hpos
  have hadd : ∀ b ∈ addNew nextNet.secondHalf rest, Valid v b := by
    intro b hb
    rw [addNew_eq, List.mem_append] at hb
    rcases hb with hb | hb
    · exact (mem_queued.1 hb).1 ▸ hsh
    · exact hrest b hb
  have hlower : currentNet.block.first = nextNet.block.lower.first := by
    rw [hfirst, Block.lower_first hpos]
  -- no half that is queued has the key of the current network or of one behind it
  have hnew : ∀ a ∈ newHalves currentNet nextNet rest,
      (a = nextNet.firstHalf ∨ a = nextNet.secondHalf) ∧
        ∀ g ∈ currentNet :: rest, a.block ≠ g.block := by
    intro a ha
    rcases List.mem_append.1 ha with ha | ha
    · split at ha
      -- the first half is left out when the current network ends where it ends
      · exact absurd ha List.not_mem_nil
      next hends =>
        obtain ⟨rfl, hnot⟩ := mem_queued.1 ha
        refine ⟨Or.inl rfl, fun g hg heq => ?_⟩
        rcases List.mem_cons.1 hg with rfl | hg
        · exact hends (by rw [getLastAddress_eq, getLastAddress_eq, heq])
        · refine hnot ((contains_iff hfh hadd).2 ⟨g, ?_, heq⟩)
          rw [addNew_eq]
          exact List.mem_append_right _ hg
    · obtain ⟨rfl, hnot⟩ := mem_queued.1 ha
      refine ⟨Or.inr rfl, fun g hg heq => ?_⟩
      rcases List.mem_cons.1 hg with rfl | hg
      · -- the current network starts where the first half starts
        have hlt := Block.lower_first_lt nextNet.block
        rw [← hlower, ← heq, hsb] at hlt
        exact absurd hlt (lt_irrefl _)
      · exact hnot ((contains_iff hsh hrest).2 ⟨g, hg, heq⟩)
  constructor
  case valid =>
    intro a ha
    rcases (hnew a ha).1 with rfl | rfl
    · exact hfh
    · exact hsh
  case half =>
    intro a ha
    rcases (hnew a ha).1 with rfl | rfl
    · exact Or.inl hfb
    · exact Or.inr hsb
  case flag =>
    intro a ha
    rcases (hnew a ha).1 with rfl | rfl <;> rfl
  case clash =>
    intro a ha g hg heq
    exact absurd heq ((hnew a ha).2 g hg)
  case lower =>
    by_cases hends : nextNet.firstHalf.getLastAddress = currentNet.getLastAddress
    · -- the current network is the first half
      refine ⟨currentNet, List.mem_append_right _ List.mem_cons_self, ?_⟩
      rw [getLastAddress_eq, getLastAddress_eq, hfb] at hends
      exact Block.ext_ends hlower hends.symm
    -- otherwise the first half is queued, or a network of the queue has its key
    · obtain ⟨b, hb, heq⟩ := exists_mem_addNew hfh hadd
      rw [addNew_eq, addNew_eq, ← List.append_assoc] at hb
      refine ⟨b, ?_, heq.trans hfb⟩
      rw [newHalves, if_neg hends, addNew_eq]
      rcases List.mem_append.1 hb with hb | hb
      · exact List.mem_append_left _ hb
      · exact List.mem_append_right _ (List.mem_cons_of_mem _ hb)
  case upper =>
    obtain ⟨b, hb, heq⟩ := exists_mem_addNew hsh hrest
    rw [addNew_eq] at hb
    refine ⟨b, ?_, heq.trans hsb⟩
    rcases List.mem_append.1 hb with hb | hb
    · exact List.mem_append_left _ (List.mem_append_right _ hb)
    · exact List.mem_append_right _ (List.mem_cons_of_mem _ hb)
  case lighter => exact totalWeight_newHalves hpos hnext.fits

/-- The polled network gives way to its halves. -/
theorem splitNext (hfirst : currentNet.block.first = nextNet.block.first)
    (hlevel : currentNet.block.level ≤ nextNet.block.level)
    (hflag : currentNet.included ≠ nextNet.included) :
    Rearranged v (currentNet :: nextNet :: rest) currentNet
      (newHalves currentNet nextNet rest ++ rest) := by
  have hlt : currentNet.block.level < nextNet.block.level := by
    apply lt_of_le_of_ne hlevel
    intro heq
    apply hflag
    exact consistent_iff.1 h.consistent _ (by simp) _ (by simp) (Block.ext_first heq hfirst)
  have hpos : 0 < nextNet.block.level := by omega
  have hnews := h.halves_newHalves hfirst hpos
  apply Rearranged.of_halves h.valid h.consistent (List.Perm.swap _ _ _) hpos hnews
  · exact List.perm_middle
  · intro b hb
    rcases List.mem_append.1 hb with hb | hb
    · rcases hnews.half b hb with heq | heq
      · refine Or.inr ⟨?_, ?_⟩
        · rw [heq, Block.lower_first hpos, hfirst]
        · rw [heq, Block.lower_level]
          omega
      · refine Or.inl ?_
        rw [heq, hfirst, ← Block.lower_first hpos]
        exact Block.lower_first_lt _
    · rcases h.next_before b hb with hlt | ⟨heq, hle⟩
      · exact Or.inl (hfirst ▸ hlt)
      · exact Or.inr ⟨hfirst.trans heq, hlevel.trans hle⟩

/-- The second half of the current network, unless the polled network has its key. -/
def innerHalf (currentNet nextNet : IpAddress) : List IpAddress :=
  if currentNet.secondHalf.networkMask = nextNet.networkMask then [] else [currentNet.secondHalf]

omit h in
theorem mergeInside_networks {s : Merge} (hflag : currentNet.included ≠ nextNet.included)
    (hnet : s.networks = rest) :
    s.mergeInside currentNet nextNet =
      ⟨nextNet :: (innerHalf currentNet nextNet ++ rest), s.ipsDone, some currentNet.firstHalf⟩ := by
  rw [Merge.mergeInside, if_neg hflag, innerHalf, hnet]
  split <;> rfl

/-- Every other network starts after the current one. -/
theorem lt_first (hlt : currentNet.block.first < nextNet.block.first) :
    ∀ g ∈ nextNet :: rest, currentNet.block.first < g.block.first := by
  intro g hg
  rcases List.mem_cons.1 hg with rfl | hg
  · exact hlt
  · exact lt_of_lt_of_le hlt (h.first_le g hg)

omit h in
theorem mem_innerHalf {a : IpAddress} : a ∈ innerHalf currentNet nextNet ↔
    a = currentNet.secondHalf ∧ currentNet.secondHalf.networkMask ≠ nextNet.networkMask := by
  rw [innerHalf]
  split
  next hmask => simp [hmask]
  next hmask => simp [hmask]

/-- The halves stand for the current network: a second half with the key of the polled network is
left to that one. -/
theorem halves_innerHalf (hlt : currentNet.block.first < nextNet.block.first)
    (hclean : currentNet.secondHalf.networkMask ≠ nextNet.networkMask →
      ∀ m ∈ rest, currentNet.secondHalf.equals m → m.included = currentNet.included) :
    Halves v currentNet (nextNet :: rest)
      (currentNet.firstHalf :: innerHalf currentNet nextNet) := by
  have hcur : Valid v currentNet := h.valid _ (by simp)
  have hnext : Valid v nextNet := h.valid _ (by simp)
  have hrest : ∀ b ∈ rest, Valid v b := fun b hb => h.valid b (by simp [hb])
  have hlevel := h.level_lt hlt
  have hpos : 0 < currentNet.block.level := by omega
  have hfh := hcur.firstHalf hpos
  have hsh := hcur.secondHalf hpos
  have hfb := hcur.firstHalf_block hpos
  have hsb := hcur.secondHalf_block hpos
  constructor
  case valid =>
    intro a ha
    rcases List.mem_cons.1 ha with rfl | ha
    · exact hfh
    · exact (mem_innerHalf.1 ha).1 ▸ hsh
  case half =>
    intro a ha
    rcases List.mem_cons.1 ha with rfl | ha
    · exact Or.inl hfb
    · exact Or.inr ((mem_innerHalf.1 ha).1 ▸ hsb)
  case flag =>
    intro a ha
    rcases List.mem_cons.1 ha with rfl | ha
    · rfl
    · rw [(mem_innerHalf.1 ha).1]
      rfl
  case clash =>
    intro a ha g hg heq
    rcases List.mem_cons.1 ha with rfl | ha
    · -- the first half starts before every other network
      have hlater := h.lt_first hlt g hg
      rw [← heq, hfb, Block.lower_first hpos] at hlater
      exact absurd hlater (lt_irrefl _)
    · obtain ⟨rfl, hmask⟩ := mem_innerHalf.1 ha
      rcases List.mem_cons.1 hg with rfl | hg
      -- the second half would have the key of the polled network, which has another mask
      · have hkey := (hsh.equals_iff hnext).2 heq
        simp only [equals, Bool.and_eq_true, beq_iff_eq] at hkey
        exact absurd hkey.1 hmask
      -- a network further behind with its key has its flag
      · exact (hclean hmask g hg ((hsh.equals_iff (hrest g hg)).2 heq)).symm
  case lower => exact ⟨_, List.mem_append_left _ List.mem_cons_self, hfb⟩
  case upper =>
    by_cases hmask : currentNet.secondHalf.networkMask = nextNet.networkMask
    · -- the polled network is the second half
      refine ⟨nextNet, List.mem_append_right _ List.mem_cons_self, ?_⟩
      apply Block.eq_upper_of_level nextNet.block.first_mem h.next_first_mem _ hlt
      have h₁ := (hsh.mask_le_iff hnext).1 hmask.le
      have h₂ := (hnext.mask_le_iff hsh).1 hmask.ge
      rw [hsb, Block.upper_level] at h₁ h₂
      omega
    · refine ⟨currentNet.secondHalf, List.mem_append_left _ (List.mem_cons_of_mem _ ?_), hsb⟩
      exact mem_innerHalf.2 ⟨rfl, hmask⟩
  case lighter =>
    have hhalves := weight_halves (a := currentNet) (b := currentNet.firstHalf)
      (c := currentNet.secondHalf) hpos (by rw [hfb]; rfl) (by rw [hsb]; rfl)
    have hone : totalWeight (innerHalf currentNet nextNet) ≤ currentNet.secondHalf.weight := by
      rw [innerHalf]
      split <;> simp [totalWeight]
    rw [totalWeight_cons]
    omega

/-- The current network gives way to its halves. -/
theorem splitCurrent (hlt : currentNet.block.first < nextNet.block.first)
    (hclean : currentNet.secondHalf.networkMask ≠ nextNet.networkMask →
      ∀ m ∈ rest, currentNet.secondHalf.equals m → m.included = currentNet.included) :
    Rearranged v (currentNet :: nextNet :: rest) currentNet.firstHalf
      (nextNet :: (innerHalf currentNet nextNet ++ rest)) := by
  have hcur : Valid v currentNet := h.valid _ (by simp)
  have hlevel := h.level_lt hlt
  have hpos : 0 < currentNet.block.level := by omega
  have hlower : currentNet.firstHalf.block.first = currentNet.block.first := by
    rw [hcur.firstHalf_block hpos, Block.lower_first hpos]
  apply Rearranged.of_halves h.valid h.consistent (List.Perm.refl _) hpos
    (h.halves_innerHalf hlt hclean)
  · exact List.perm_middle.trans (List.Perm.swap _ _ _)
  · intro b hb
    refine Or.inl ?_
    rw [hlower]
    rcases List.mem_cons.1 hb with rfl | hb
    · exact hlt
    · rcases List.mem_append.1 hb with hb | hb
      · rw [(mem_innerHalf.1 hb).1, hcur.secondHalf_block hpos, ← Block.lower_first hpos]
        exact Block.lower_first_lt _
      · exact h.lt_first hlt b (List.mem_cons_of_mem _ hb)

end Polled

/-! ## One round -/

variable {choice : Nat} {ipsDone : List IpAddress}

theorem Inv.polled (h : Inv v orig ⟨networks, ipsDone, some currentNet⟩)
    (hpoll : poll choice networks = some (nextNet, rest))
    (hoverlap : nextNet.block.first ≤ currentNet.block.last) : Polled v currentNet nextNet rest := by
  have hperm := (perm_of_poll hpoll).cons currentNet
  refine ⟨fun a ha => h.valid a (hperm.mem_iff.2 ha), ?_, ?_, ?_, hoverlap⟩
  · exact h.consistent.subset fun e he => ((hperm.map _).mem_iff).2 he
  · exact h.before currentNet rfl nextNet ((perm_of_poll hpoll).mem_iff.2 List.mem_cons_self)
  · exact poll_before (fun a ha => h.valid a (List.mem_cons_of_mem _ ha)) hpoll

theorem treeAdd_last {ips : List IpAddress}
    (h : ∀ d ∈ ips, d.block.first < a.block.first) : treeAdd a ips = ips ++ [a] := by
  induction ips with
  | nil => rfl
  | cons d ips ih =>
      obtain ⟨hd, hrest⟩ := List.forall_mem_cons.1 h
      rw [treeAdd, compareTo_of_first_lt hd, ih hrest]
      rfl

/-- The current network is done when every other one starts after its end. -/
theorem Inv.finish (h : Inv v orig ⟨networks, ipsDone, some currentNet⟩) {next : Option IpAddress}
    (hperm : networks.Perm (next.toList ++ rest))
    (hbefore : ∀ c ∈ next, ∀ b ∈ rest, Before c b) (hended : next = none → rest = [])
    (hapart : ∀ b ∈ networks, currentNet.block.last < b.block.first) :
    let s' : Merge := ⟨rest, treeAdd currentNet ipsDone, next⟩
    Inv v orig s' ∧ totalWeight s'.pending < totalWeight (currentNet :: networks) := by
  refine ⟨?_, ?_⟩
  swap
  · have hcur := weight_pos currentNet
    rw [totalWeight_cons, totalWeight_perm hperm]
    exact Nat.lt_add_of_pos_left hcur
  have hfirst : ∀ d ∈ ipsDone, d.block.last < currentNet.block.first :=
    fun d hd => h.done d hd currentNet List.mem_cons_self
  -- what is done comes before the current network, which is added at the end
  have htree : treeAdd currentNet ipsDone = ipsDone ++ [currentNet] :=
    treeAdd_last fun d hd => lt_of_le_of_lt d.block.first_le_last (hfirst d hd)
  have hmem : ∀ a ∈ next.toList ++ rest, a ∈ networks := fun a ha => hperm.mem_iff.2 ha
  rw [htree]
  refine ⟨?_, ?_, hbefore, hended, ?_, ?_, fun x f => ?_⟩
  · exact fun a ha => h.valid a (List.mem_cons_of_mem _ (hmem a ha))
  · refine h.consistent.subset fun e he => ?_
    obtain ⟨a, ha, rfl⟩ := mem_table.1 he
    exact entry_mem_table (List.mem_cons_of_mem _ (hmem a ha))
  · intro d hd a ha
    rcases List.mem_append.1 hd with hd | hd
    · exact h.done d hd a (List.mem_cons_of_mem _ (hmem a ha))
    · obtain rfl := List.mem_singleton.1 hd
      exact hapart a (hmem a ha)
  · refine List.pairwise_append.2 ⟨h.sorted, List.pairwise_singleton _ _, fun d hd e he => ?_⟩
    obtain rfl := List.mem_singleton.1 he
    exact hfirst d hd
  · rw [h.lookup]
    -- no other network reaches into the current one
    have hout : Lookup (table (currentNet :: networks)) x f ↔
        (x ∈ currentNet.block ∧ currentNet.included = f) ∨ Lookup (table networks) x f := by
      refine lookup_apart_iff fun g hg hx hgx => ?_
      obtain ⟨b, hb, rfl⟩ := mem_table.1 hg
      have h₁ := (Block.mem_iff.1 hx).2
      have h₂ := (Block.mem_iff.1 hgx).1
      have h₃ := hapart b hb
      exact absurd (lt_of_le_of_lt h₁ h₃) (not_lt.2 h₂)
    rw [show (⟨networks, ipsDone, some currentNet⟩ : Merge).pending = currentNet :: networks from rfl,
      hout, table_perm hperm]
    simp only [List.mem_append, List.mem_singleton, or_and_right, exists_or, exists_eq_left,
      holds_iff, or_assoc]
    rfl

/-- The polled network starts with the current one and is no smaller. -/
theorem Inv.mergeSameBase (h : Inv v orig ⟨networks, ipsDone, some currentNet⟩)
    (hperm : networks.Perm (nextNet :: rest)) (hp : Polled v currentNet nextNet rest)
    (hfirst : currentNet.block.first = nextNet.block.first)
    (hlevel : currentNet.block.level ≤ nextNet.block.level) :
    let s' := Merge.mergeSameBase ⟨rest, ipsDone, some currentNet⟩ currentNet nextNet
    Inv v orig s' ∧ totalWeight s'.pending < totalWeight (currentNet :: networks) := by
  have hpending : (currentNet :: networks).Perm (currentNet :: nextNet :: rest) :=
    hperm.cons currentNet
  by_cases hflag : currentNet.included = nextNet.included
  · rw [Merge.mergeSameBase, if_pos hflag]
    apply h.rearrange
    apply Rearranged.perm _ hpending
    apply Rearranged.of_subset hp.valid hp.consistent
    · exact fun a ha => List.mem_cons_of_mem _ ha
    · exact hp.next_before
    · exact hp.forget hfirst hlevel hflag
    · exact Nat.lt_add_of_pos_left (weight_pos currentNet)
  · rw [Polled.mergeSameBase_networks hflag rfl]
    exact h.rearrange ((hp.splitNext hfirst hlevel hflag).perm hpending)

/-- The polled network starts inside the current one, with nothing between the two of another
flag and no second half of another flag. -/
theorem Inv.mergeInside (h : Inv v orig ⟨networks, ipsDone, some currentNet⟩)
    (hperm : networks.Perm (nextNet :: rest)) (hp : Polled v currentNet nextNet rest)
    (hlt : currentNet.block.first < nextNet.block.first)
    (hdrop : currentNet.included = nextNet.included →
      ∀ m ∈ rest, m.block.first = nextNet.block.first →
        (∀ m' ∈ rest, m'.block.first = nextNet.block.first → m.block.level ≤ m'.block.level) →
          m.included = nextNet.included)
    (hcollide : currentNet.included ≠ nextNet.included →
      currentNet.secondHalf.networkMask ≠ nextNet.networkMask →
        ∀ m ∈ rest, currentNet.secondHalf.equals m → m.included = currentNet.included) :
    let s' := Merge.mergeInside ⟨rest, ipsDone, some currentNet⟩ currentNet nextNet
    Inv v orig s' ∧ totalWeight s'.pending < totalWeight (currentNet :: networks) := by
  have hpending : (currentNet :: networks).Perm (currentNet :: nextNet :: rest) :=
    hperm.cons currentNet
  by_cases hflag : currentNet.included = nextNet.included
  · rw [Merge.mergeInside, if_pos hflag]
    apply h.rearrange
    apply Rearranged.perm _ hpending
    apply Rearranged.of_subset hp.valid hp.consistent
    · intro a ha
      rcases List.mem_cons.1 ha with rfl | ha
      · exact List.mem_cons_self
      · exact List.mem_cons_of_mem _ (List.mem_cons_of_mem _ ha)
    · intro b hb
      exact Or.inl (lt_of_lt_of_le hlt (hp.first_le b hb))
    · exact hp.drop hlt hflag (hdrop hflag)
    · have := weight_pos nextNet
      simp only [totalWeight_cons]
      omega
  · rw [Polled.mergeInside_networks hflag rfl]
    exact h.rearrange ((hp.splitCurrent hlt (hcollide hflag)).perm hpending)

/-- **One round.** A round that neither drops nor collides keeps the flags of all addresses, and
leaves less to do. -/
theorem Inv.round (h : Inv v orig ⟨networks, ipsDone, some currentNet⟩)
    (hdrops : ¬ Merge.Drops ⟨networks, ipsDone, some currentNet⟩ choice)
    (hcollides : ¬ Merge.Collides ⟨networks, ipsDone, some currentNet⟩ choice) :
    let s' := Merge.round choice ⟨networks, ipsDone, some currentNet⟩ currentNet
    Inv v orig s' ∧ totalWeight s'.pending < totalWeight (currentNet :: networks) := by
  have hvalid : ∀ a ∈ networks, Valid v a := fun a ha => h.valid a (List.mem_cons_of_mem _ ha)
  have hcur : Valid v currentNet := h.valid _ List.mem_cons_self
  rw [Merge.round]
  cases hpoll : poll choice networks with
  | none =>
      have hempty := poll_eq_none hvalid hpoll
      subst hempty
      exact h.finish (List.Perm.refl _) (by simp) (fun _ => rfl) (by simp)
  | some polled =>
      obtain ⟨nextNet, rest⟩ := polled
      have hperm := perm_of_poll hpoll
      have hnext : Valid v nextNet := hvalid _ (hperm.mem_iff.2 List.mem_cons_self)
      have hrest : ∀ m ∈ rest, Valid v m := fun m hm =>
        hvalid m (hperm.mem_iff.2 (List.mem_cons_of_mem _ hm))
      simp only [getFirstAddress_eq, getLastAddress_eq]
      split
      next hlt =>
        -- the current network ends before the polled one, and so before all others
        refine h.finish hperm (fun c hc => ?_) (fun hn => by simp at hn) fun b hb => ?_
        · obtain rfl : nextNet = c := by simpa using hc
          exact poll_before hvalid hpoll
        · rcases List.mem_cons.1 (hperm.mem_iff.1 hb) with rfl | hb
          · exact hlt
          · rcases poll_before hvalid hpoll b hb with hbef | ⟨hbef, -⟩
            · exact hlt.trans hbef
            · exact hbef ▸ hlt
      next hover =>
        have hp := h.polled hpoll (not_lt.1 hover)
        split
        next hbase =>
          exact h.mergeSameBase hperm hp hbase.1 ((hnext.mask_le_iff hcur).1 hbase.2)
        next hbase =>
          have hlt : currentNet.block.first < nextNet.block.first := by
            rcases hp.current_before with hlt | ⟨heq, hlevel⟩
            · exact hlt
            · exact absurd ⟨heq, (hnext.mask_le_iff hcur).2 hlevel⟩ hbase
          have hinside : Merge.Inside currentNet nextNet := by
            rw [Merge.Inside, getFirstAddress_eq, getFirstAddress_eq, getLastAddress_eq]
            exact ⟨hlt, hp.overlap⟩
          apply h.mergeInside hperm hp hlt
          · -- a larger network of the other flag at the same address would be a drop
            intro hflag m hm hfirst hmin
            by_contra hne
            refine hdrops ⟨currentNet, rfl, (nextNet, rest), hpoll, hinside, hflag, m, hm, ?_, hne,
              fun m' hm' hfirst' => ?_⟩
            · rw [getFirstAddress_eq, getFirstAddress_eq, hfirst]
            · rw [getFirstAddress_eq, getFirstAddress_eq] at hfirst'
              exact ((hrest m' hm').mask_le_iff (hrest m hm)).2 (hmin m' hm' hfirst')
          · -- a network of the other flag with the key of the second half would be a collision
            intro hflag hmask m hm hkey
            by_contra hne
            exact hcollides ⟨currentNet, rfl, (nextNet, rest), hpoll, hinside, hflag, hmask, m, hm,
              hkey, hne⟩

/-! ## Runs -/

theorem Networks.consistent (nets : Networks v) : Consistent (table nets.nets) := by
  refine consistent_iff.2 fun a ha b hb heq => ?_
  by_cases hab : a = b
  · rw [hab]
  · have : Std.Symm fun a b : IpAddress =>
        ¬ (a.getFirstAddress = b.getFirstAddress ∧ a.networkMask = b.networkMask) :=
      ⟨fun _ _ h h' => h ⟨h'.1.symm, h'.2.symm⟩⟩
    have hkey := ((nets.valid a ha).equals_iff (nets.valid b hb)).2 heq
    simp only [equals, Bool.and_eq_true, beq_iff_eq] at hkey
    exact absurd ⟨hkey.2.symm, hkey.1⟩ (nets.distinct.forall ha hb hab)

/-- The loop starts with all networks to do. -/
theorem Networks.start_inv (nets : Networks v) (choice : Nat) :
    Inv v nets.nets (Merge.start choice nets.nets) ∧
      (Merge.start choice nets.nets).pending.Perm nets.nets := by
  rw [Merge.start]
  cases hpoll : poll choice nets.nets with
  | none =>
      have hempty := poll_eq_none nets.valid hpoll
      refine ⟨⟨by simp [Merge.pending], by simp [Consistent, Merge.pending, table], by simp,
        fun _ => rfl, by simp, List.Pairwise.nil, fun x f => ?_⟩, by simp [Merge.pending, hempty]⟩
      simp [MostSpecific, hempty, Merge.pending, Lookup, Smallest, table]
  | some polled =>
      obtain ⟨currentNet, rest⟩ := polled
      have hperm : nets.nets.Perm (currentNet :: rest) := perm_of_poll hpoll
      refine ⟨⟨fun a ha => nets.valid a (hperm.mem_iff.2 ha), ?_, fun c hc => ?_, by simp, by simp,
        List.Pairwise.nil, fun x f => ?_⟩, hperm.symm⟩
      · exact nets.consistent.subset fun e he => ((hperm.map _).mem_iff).2 he
      · obtain rfl : currentNet = c := by simpa using hc
        exact poll_before nets.valid hpoll
      · rw [mostSpecific_iff nets.valid, table_perm hperm]
        simp [Merge.pending]

/-- The networks that are done when nothing is left to do. -/
theorem Inv.resolves {s : Merge} (h : Inv v orig s) (hend : s.currentNet = none) :
    Resolves orig s.ipsDone where
  disjoint := h.sorted.imp fun {a b} hab x ha hb => by
    have h₁ := (Block.mem_iff.1 (holds_iff.1 ha)).2
    have h₂ := (Block.mem_iff.1 (holds_iff.1 hb)).1
    omega
  flags := fun x f => by
    rw [h.lookup]
    simp [Merge.pending, hend, h.ended hend, table, Lookup, Smallest]

theorem Inv.loop {choices : List Nat} {s : Merge} (h : Inv v orig s)
    (hclean : ∀ x ∈ Machine.history Merge.step s choices,
      ¬ x.pre.Drops x.label ∧ ¬ x.pre.Collides x.label) :
    (∀ out, Merge.loop choices s = some out → Resolves orig out) ∧
      (totalWeight s.pending ≤ choices.length → (Merge.loop choices s).isSome) := by
  induction choices generalizing s with
  | nil =>
      obtain ⟨networks, ipsDone, currentNet⟩ := s
      cases currentNet with
      | none => exact ⟨fun out hout => Option.some.inj hout ▸ h.resolves rfl, fun _ => rfl⟩
      | some currentNet =>
          refine ⟨fun out hout => by simp [Merge.loop] at hout, fun hle => ?_⟩
          have := weight_pos currentNet
          simp only [Merge.pending, Option.toList_some, totalWeight_append, totalWeight_cons,
            List.length_nil] at hle
          omega
  | cons choice choices ih =>
      obtain ⟨networks, ipsDone, currentNet⟩ := s
      cases currentNet with
      | none => exact ⟨fun out hout => Option.some.inj hout ▸ h.resolves rfl, fun _ => rfl⟩
      | some currentNet =>
          rw [Machine.history_cons_of_some (by rfl)] at hclean
          obtain ⟨⟨hdrops, hcollides⟩, hclean⟩ := List.forall_mem_cons.1 hclean
          obtain ⟨hinv, hlt⟩ := h.round hdrops hcollides
          obtain ⟨hout, hsome⟩ := ih hinv hclean
          refine ⟨hout, fun hle => hsome ?_⟩
          have hle : totalWeight (currentNet :: networks) ≤ choices.length + 1 := hle
          omega

end Invariant

/-- **Most specific route.** In a run of `generateIPList` none of whose rounds drops or collides,
the result gives every address the flag of the most specific network around it; the run ends after
at most as many rounds as the networks have blocks. -/
theorem generateIPList_mostSpecific {isV4 : Bool} (nets : Networks isV4) (choice : Nat)
    (choices : List Nat)
    (hclean : ∀ x ∈ Machine.history Merge.step (Merge.start choice nets.nets) choices,
      ¬ x.pre.Drops x.label ∧ ¬ x.pre.Collides x.label) :
    (∀ out, generateIPList choice choices nets.nets = some out → Resolves nets.nets out) ∧
      (totalWeight nets.nets ≤ choices.length →
        (generateIPList choice choices nets.nets).isSome) := by
  obtain ⟨hinv, hperm⟩ := nets.start_inv choice
  have hloop := hinv.loop hclean
  rw [totalWeight_perm hperm] at hloop
  exact hloop

instance (s : Merge) (choice : Nat) : Decidable (s.Drops choice) := by
  unfold Merge.Drops Merge.Inside
  infer_instance

instance (s : Merge) (choice : Nat) : Decidable (s.Collides choice) := by
  unfold Merge.Collides Merge.Inside
  infer_instance

/-- `10.0.0.0/8` through the VPN, but not `10.64.0.0/10`. -/
def splitTunnel : Networks true where
  nets := [⟨0x0A000000, 8, true, true⟩, ⟨0x0A400000, 10, false, true⟩]
  valid := by unfold IpAddress.Valid; decide
  distinct := by decide +kernel

theorem generateIPList_mostSpecific_splitTunnel :
    ∃ out, generateIPList 0 (List.replicate 8 0) splitTunnel.nets = some out ∧
      Resolves splitTunnel.nets out := by
  have hresult := generateIPList_mostSpecific splitTunnel 0 (List.replicate 8 0) (by decide +kernel)
  obtain ⟨out, hout⟩ := Option.isSome_iff_exists.1
    (show (generateIPList 0 (List.replicate 8 0) splitTunnel.nets).isSome by decide +kernel)
  exact ⟨out, hout, hresult.1 out hout⟩

/-- **A route that is not the most specific one.** Everything but the upper half of the address
space is excluded, and of the upper half its first half is excluded again: that exclusion is
dropped into the excluded whole, although the included upper half lies between them. -/
theorem generateIPList_counterexample :
    ∃ (nets : Networks true) (choices : List Nat) (out : List IpAddress),
      generateIPList 0 choices nets.nets = some out ∧ ¬ Resolves nets.nets out := by
  let nets : Networks true :=
    { nets := [⟨0, 0, false, true⟩, ⟨0x80000000, 1, true, true⟩, ⟨0x80000000, 2, false, true⟩]
      valid := by unfold IpAddress.Valid; decide
      distinct := by decide +kernel }
  refine ⟨nets, List.replicate 8 0, [⟨0, 1, false, true⟩, ⟨0x80000000, 1, true, true⟩],
    by decide +kernel, fun h => absurd (h.flags 0x80000000 true) (by decide +kernel)⟩

end PortVpn.Net
