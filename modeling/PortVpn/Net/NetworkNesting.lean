import PortVpn.Net.MostSpecificRoute

/-!
# Nested networks

An address belongs to a network if the two agree in the bits of the prefix. `nested_or_disjoint`
compares this with the bounds that `getFirstAddress` and `getLastAddress` compute, bit by bit:
networks of one family are nested or apart, the order of the queue puts the larger one first where
one lies inside the other, and `split` cuts a network in two.
-/

set_option autoImplicit false

namespace PortVpn.Net

open PortVpn.Lib

namespace IpAddress

/-- The address agrees with the base address of the network in the bits of its prefix. -/
def HasAddress (a : IpAddress) (x : Int) : Prop :=
  x / 2 ^ a.numBits = a.netAddress / 2 ^ a.numBits

instance (a : IpAddress) (x : Int) : Decidable (a.HasAddress x) := by
  rw [HasAddress]
  infer_instance

/-- The network is cut in two, the addresses of the first part before those of the second one. -/
structure SplitsInto (isV4 : Bool) (a firstHalf secondHalf : IpAddress) : Prop where
  valid : Valid isV4 firstHalf ∧ Valid isV4 secondHalf
  included : firstHalf.included = a.included ∧ secondHalf.included = a.included
  mask : firstHalf.networkMask = a.networkMask + 1 ∧ secondHalf.networkMask = a.networkMask + 1
  disjoint : ∀ x, firstHalf.HasAddress x → ¬ secondHalf.HasAddress x
  ordered : ∀ x y, firstHalf.HasAddress x → secondHalf.HasAddress y → x < y
  compareTo : firstHalf.compareTo secondHalf = .lt
  together : ∀ x, a.HasAddress x ↔ firstHalf.HasAddress x ∨ secondHalf.HasAddress x

variable {v : Bool} {a b : IpAddress}

theorem hasAddress_iff {x : Int} : a.HasAddress x ↔ x ∈ a.block := Iff.rfl

/-- The bounds that are computed bit by bit are those of the prefix. -/
theorem hasAddress_iff_holds {x : Int} : a.HasAddress x ↔ a.Holds x :=
  hasAddress_iff.trans holds_iff.symm

/-! ## Containment -/

theorem containsNet_eq : a.containsNet b = true ↔
    a.block.first ≤ b.block.first ∧ b.block.last ≤ a.block.last := by
  rw [containsNet, Bool.and_eq_true, decide_eq_true_eq, decide_eq_true_eq, getFirstAddress_eq,
    getFirstAddress_eq, getLastAddress_eq, getLastAddress_eq]

theorem containsNet_iff_subset (a b : IpAddress) :
    a.containsNet b = true ↔ ∀ x, b.HasAddress x → a.HasAddress x := by
  rw [containsNet_eq]
  constructor
  · rintro ⟨hfirst, hlast⟩ x hx
    obtain ⟨hlow, hhigh⟩ := Block.mem_iff.1 (hasAddress_iff.1 hx)
    apply hasAddress_iff.2
    apply Block.mem_iff.2
    exact ⟨hfirst.trans hlow, hhigh.trans hlast⟩
  · intro h
    -- the two ends of the smaller network are addresses of the larger one
    have hfirst := Block.mem_iff.1 (hasAddress_iff.1 (h _ b.block.first_mem))
    have hlast := Block.mem_iff.1 (hasAddress_iff.1 (h _ b.block.last_mem))
    exact ⟨hfirst.1, hlast.2⟩

/-- Networks that share an address are nested, the one with the longer prefix inside. -/
theorem containsNet_of_shared {x : Int} (hax : a.HasAddress x) (hbx : b.HasAddress x)
    (hlevel : b.block.level ≤ a.block.level) : a.containsNet b = true := by
  rw [containsNet_iff_subset]
  intro y hy
  exact Block.nested hbx hax hlevel hy

/-- A network inside another one that does not start where it starts has the longer prefix. -/
theorem mask_lt_of_inside (ha : Valid v a) (hb : Valid v b)
    (hinside : ∀ x, b.HasAddress x → a.HasAddress x)
    (hfirst : b.getFirstAddress ≠ a.getFirstAddress) : a.networkMask < b.networkMask := by
  rw [getFirstAddress_eq, getFirstAddress_eq] at hfirst
  have hmem : b.block.first ∈ a.block := hinside _ b.block.first_mem
  have hlow := (Block.mem_iff.1 hmem).1
  by_contra hcon
  have hlevel := (hb.mask_le_iff ha).1 (not_lt.1 hcon)
  have hback := Block.first_le_of_nested hmem b.block.first_mem hlevel
  exact hfirst (le_antisymm hback hlow)

/-! ## Splitting -/

theorem splitsInto_halves (ha : Valid v a) (hmask : a.networkMask < width v) :
    SplitsInto v a a.firstHalf a.secondHalf := by
  have hpos : 0 < a.block.level := ha.fits.pos_iff.2 hmask
  have hlower := ha.firstHalf_block hpos
  have hupper := ha.secondHalf_block hpos
  have hordered : ∀ x y, a.firstHalf.HasAddress x → a.secondHalf.HasAddress y → x < y := by
    intro x y hx hy
    rw [hasAddress_iff, hlower, Block.mem_iff] at hx
    rw [hasAddress_iff, hupper, Block.mem_iff, Block.upper_first] at hy
    omega
  constructor
  case valid => exact ⟨ha.firstHalf hpos, ha.secondHalf hpos⟩
  case included => exact ⟨rfl, rfl⟩
  case mask => exact ⟨rfl, rfl⟩
  case disjoint =>
    intro x hx hy
    exact lt_irrefl x (hordered x x hx hy)
  case ordered => exact hordered
  case compareTo =>
    have hlt := Block.lower_first_lt a.block
    rw [← hlower, ← hupper] at hlt
    rw [IpAddress.compareTo, getFirstAddress_eq, getFirstAddress_eq, compare_lt_iff_lt.2 hlt]
  case together =>
    intro x
    rw [hasAddress_iff, hasAddress_iff, hasAddress_iff, hlower, hupper]
    exact Block.mem_halves hpos

/-- **Networks are nested or disjoint, and splitting halves them.** -/
theorem nested_or_disjoint (ha : Valid v a) (hb : Valid v b) :
    (a.containsNet b = true ↔ ∀ x, b.HasAddress x → a.HasAddress x) ∧
    ((∃ x, a.HasAddress x ∧ b.HasAddress x) → a.containsNet b = true ∨ b.containsNet a = true) ∧
    (a.compareTo b = .lt → (∀ x, b.HasAddress x → a.HasAddress x) →
      b.getFirstAddress ≠ a.getFirstAddress → a.networkMask < b.networkMask) ∧
    (a.networkMask < width v → SplitsInto v a a.firstHalf a.secondHalf) := by
  refine ⟨containsNet_iff_subset a b, ?_, ?_, splitsInto_halves ha⟩
  · rintro ⟨x, hax, hbx⟩
    rcases le_total b.block.level a.block.level with hlevel | hlevel
    · exact Or.inl (containsNet_of_shared hax hbx hlevel)
    · exact Or.inr (containsNet_of_shared hbx hax hlevel)
  · intro _ hinside hfirst
    exact mask_lt_of_inside ha hb hinside hfirst

/-- An unmasked network and one inside it. -/
theorem nested_or_disjoint_inside :
    (⟨0xC0A80101, 16, true, true⟩ : IpAddress).containsNet ⟨0xC0A80180, 25, false, true⟩ = true ∧
      SplitsInto true ⟨0xC0A80101, 16, true, true⟩
        (⟨0xC0A80101, 16, true, true⟩ : IpAddress).firstHalf
        (⟨0xC0A80101, 16, true, true⟩ : IpAddress).secondHalf := by
  obtain ⟨-, hnested, -, hsplit⟩ := nested_or_disjoint (v := true)
    (a := ⟨0xC0A80101, 16, true, true⟩) (b := ⟨0xC0A80180, 25, false, true⟩)
    ⟨rfl, by decide, by decide⟩ ⟨rfl, by decide, by decide⟩
  refine ⟨(hnested ⟨0xC0A80180, by decide, by decide⟩).resolve_right (by decide), ?_⟩
  exact hsplit (by decide)

end IpAddress

end PortVpn.Net
