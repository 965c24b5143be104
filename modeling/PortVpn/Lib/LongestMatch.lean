import Mathlib.Data.Int.Basic
import Mathlib.Data.List.Basic
import Mathlib.Tactic.Linarith
import Mathlib.Tactic.Ring

/-!
# Dyadic blocks and longest-match tables

A block of level `k` is the set of integers with one common quotient by `2 ^ k`: a network of an
address space is one. Two blocks that share a point are nested. A table assigns values to blocks,
and a lookup takes the value of the smallest block that holds the point. The rules say when a
table may be rewritten without a change to any lookup: an entry may be dropped whose next larger
entry has the same value (`lookup_drop_iff`), and an entry may be replaced by its two halves
(`lookup_split_iff`).
-/

set_option autoImplicit false

namespace PortVpn.Lib

universe u

/-- The integers whose quotient by `2 ^ level` is `index`. -/
structure Block where
  level : Nat
  index : Int
  deriving DecidableEq, Repr

namespace Block

instance : Membership Int Block := ⟨fun b x => x / 2 ^ b.level = b.index⟩

theorem mem_def {b : Block} {x : Int} : x ∈ b ↔ x / 2 ^ b.level = b.index := Iff.rfl

instance (x : Int) (b : Block) : Decidable (x ∈ b) :=
  inferInstanceAs (Decidable (x / 2 ^ b.level = b.index))

def first (b : Block) : Int := b.index * 2 ^ b.level

def last (b : Block) : Int := b.index * 2 ^ b.level + 2 ^ b.level - 1

theorem mem_iff {b : Block} {x : Int} : x ∈ b ↔ b.first ≤ x ∧ x ≤ b.last := by
  have hpos : (0 : Int) < 2 ^ b.level := by positivity
  rw [mem_def, first, last, Int.ediv_eq_iff_of_pos hpos]
  omega

theorem first_le_last (b : Block) : b.first ≤ b.last := by
  have hpos : (0 : Int) < 2 ^ b.level := by positivity
  rw [first, last]
  omega

theorem first_mem (b : Block) : b.first ∈ b := mem_iff.2 ⟨le_refl _, b.first_le_last⟩

theorem last_mem (b : Block) : b.last ∈ b := mem_iff.2 ⟨b.first_le_last, le_refl _⟩

variable {b c : Block} {x : Int}

theorem ext_first (hlevel : b.level = c.level) (hfirst : b.first = c.first) : b = c := by
  obtain ⟨k, i⟩ := b
  obtain ⟨l, j⟩ := c
  obtain rfl : k = l := hlevel
  have hne : (2 : Int) ^ k ≠ 0 := by positivity
  rw [first, first] at hfirst
  obtain rfl : i = j := mul_right_cancel₀ hne hfirst
  rfl

theorem ext_ends (hfirst : b.first = c.first) (hlast : b.last = c.last) : b = c := by
  refine ext_first ?_ hfirst
  have hpow : (2 : Int) ^ b.level = 2 ^ c.level := by
    rw [first, first] at hfirst
    rw [last, last] at hlast
    omega
  exact Nat.pow_right_injective (le_refl 2) (by exact_mod_cast hpow)

theorem eq_of_mem (hb : x ∈ b) (hc : x ∈ c) (h : b.level = c.level) : b = c := by
  obtain ⟨k, i⟩ := b
  obtain ⟨l, j⟩ := c
  obtain rfl : k = l := h
  obtain rfl : i = j := (mem_def.1 hb).symm.trans (mem_def.1 hc)
  rfl

/-- Blocks that share a point are nested, the one of the lower level inside. -/
theorem nested (hb : x ∈ b) (hc : x ∈ c) (h : b.level ≤ c.level) {y : Int} (hy : y ∈ b) :
    y ∈ c := by
  have hquot : ∀ z : Int, z / 2 ^ c.level = z / 2 ^ b.level / 2 ^ (c.level - b.level) := fun z => by
    rw [Int.ediv_ediv_of_nonneg (by positivity), ← pow_add, Nat.add_sub_cancel' h]
  rw [mem_def, hquot, mem_def.1 hy, ← mem_def.1 hb, ← hquot, mem_def.1 hc]

theorem first_le_of_nested (hb : x ∈ b) (hc : x ∈ c) (h : b.level ≤ c.level) :
    c.first ≤ b.first := (mem_iff.1 (nested hb hc h b.first_mem)).1

/-! ## Halves -/

def lower (b : Block) : Block := ⟨b.level - 1, 2 * b.index⟩

def upper (b : Block) : Block := ⟨b.level - 1, 2 * b.index + 1⟩

@[simp] theorem lower_level (b : Block) : b.lower.level = b.level - 1 := rfl

@[simp] theorem upper_level (b : Block) : b.upper.level = b.level - 1 := rfl

theorem two_pow_level (h : 0 < b.level) : (2 : Int) ^ b.level = 2 * 2 ^ (b.level - 1) := by
  rw [← pow_succ', Nat.sub_add_cancel h]

theorem lower_first (h : 0 < b.level) : b.lower.first = b.first := by
  rw [first, first, lower, two_pow_level h]
  ring

theorem upper_first (b : Block) : b.upper.first = b.lower.last + 1 := by
  rw [first, last, upper, lower]
  ring

theorem lower_first_lt (b : Block) : b.lower.first < b.upper.first := by
  have := b.lower.first_le_last
  rw [upper_first]
  omega

theorem upper_last (h : 0 < b.level) : b.upper.last = b.last := by
  rw [last, last, upper, two_pow_level h]
  ring

theorem mem_halves (h : 0 < b.level) : x ∈ b ↔ x ∈ b.lower ∨ x ∈ b.upper := by
  have hll := b.lower.first_le_last
  have hul := b.upper.first_le_last
  rw [mem_iff, mem_iff, mem_iff, ← lower_first h, ← upper_last h, b.upper_first]
  rw [b.upper_first] at hul
  omega

/-- A block strictly inside a block of the next level is its upper half if it does not start where
the larger block starts. -/
theorem eq_upper_of_level (hb : x ∈ b) (hc : x ∈ c) (h : b.level + 1 = c.level)
    (hfirst : c.first < b.first) : b = c.upper := by
  have hpos : 0 < c.level := by omega
  have hlevel : b.level = c.level - 1 := by omega
  have hbc : b.first ∈ c := nested hb hc (by omega) b.first_mem
  rcases (mem_halves hpos).1 hbc with hl | hu
  · have hlow := eq_of_mem b.first_mem hl hlevel
    rw [hlow, lower_first hpos] at hfirst
    exact absurd hfirst (lt_irrefl _)
  · exact eq_of_mem b.first_mem hu hlevel

end Block

/-! ## Tables -/

section Table

variable {β : Type u}

/-- The smallest entries of the table at a point. -/
def Smallest (t : List (Block × β)) (x : Int) (e : Block × β) : Prop :=
  e ∈ t ∧ x ∈ e.1 ∧ ∀ g ∈ t, x ∈ g.1 → e.1.level ≤ g.1.level

/-- The value that the smallest block with the point gives to it. -/
def Lookup (t : List (Block × β)) (x : Int) (v : β) : Prop := ∃ e, Smallest t x e ∧ e.2 = v

/-- No block has two values. -/
def Consistent (t : List (Block × β)) : Prop := ∀ e ∈ t, ∀ g ∈ t, e.1 = g.1 → e.2 = g.2

variable {t t' : List (Block × β)} {e e' : Block × β} {x : Int} {v w : β}

theorem Consistent.subset (h : Consistent t) (hsub : ∀ e ∈ t', e ∈ t) : Consistent t' :=
  fun e he g hg => h e (hsub e he) g (hsub g hg)

theorem Consistent.append {hs : List (Block × β)} (hhs : Consistent hs) (ht : Consistent t)
    (hmix : ∀ h ∈ hs, ∀ g ∈ t, h.1 = g.1 → h.2 = g.2) : Consistent (hs ++ t) := by
  intro e he g hg heq
  rcases List.mem_append.1 he with he | he <;> rcases List.mem_append.1 hg with hg | hg
  · exact hhs e he g hg heq
  · exact hmix e he g hg heq
  · exact (hmix g hg e he heq.symm).symm
  · exact ht e he g hg heq

theorem lookup_congr (h : ∀ e, e ∈ t ↔ e ∈ t') : Lookup t x v ↔ Lookup t' x v := by
  simp only [Lookup, Smallest, h]

theorem Smallest.value_eq (hc : Consistent t) (he : Smallest t x e) (he' : Smallest t x e') :
    e.2 = e'.2 :=
  hc e he.1 e' he'.1 (Block.eq_of_mem he.2.1 he'.2.1
    (le_antisymm (he.2.2 e' he'.1 he'.2.1) (he'.2.2 e he.1 he.2.1)))

theorem exists_smallest (h : ∃ e ∈ t, x ∈ e.1) : ∃ e, Smallest t x e := by
  classical
  have hlevels : ∃ n, ∃ e ∈ t, x ∈ e.1 ∧ e.1.level = n := by
    obtain ⟨e, he, hx⟩ := h
    exact ⟨_, e, he, hx, rfl⟩
  obtain ⟨e, he, hx, hn⟩ := Nat.find_spec hlevels
  exact ⟨e, he, hx, fun g hg hgx => hn ▸ Nat.find_min' hlevels ⟨g, hg, hgx, rfl⟩⟩

/-- **Transfer.** Lookups agree at a point when the smaller table covers it and keeps the value of
each smallest entry. -/
theorem lookup_iff_of_smallest (hc : Consistent t')
    (hcover : ∀ g ∈ t', x ∈ g.1 → ∃ e ∈ t, x ∈ e.1)
    (hkeep : ∀ e, Smallest t x e → ∃ e', Smallest t' x e' ∧ e'.2 = e.2) :
    Lookup t x v ↔ Lookup t' x v := by
  constructor
  · rintro ⟨e, he, rfl⟩
    exact hkeep e he
  · rintro ⟨g, hg, rfl⟩
    obtain ⟨e, he⟩ := exists_smallest (hcover g hg.1 hg.2.1)
    obtain ⟨e', he', hval⟩ := hkeep e he
    exact ⟨e, he, hval.symm.trans (he'.value_eq hc hg)⟩

/-- **Drop.** An entry goes when the next larger entry around it has the same value. -/
theorem lookup_drop_iff (hc : Consistent t) (he' : e' ∈ t) (hsub : ∀ y ∈ e.1, y ∈ e'.1)
    (hval : e'.2 = e.2)
    (hnext : ∀ g ∈ t, e.1.level ≤ g.1.level → e.1.first ∈ g.1 → e'.1.level ≤ g.1.level) :
    Lookup (e :: t) x v ↔ Lookup t x v := by
  refine lookup_iff_of_smallest hc (fun g hg hx => ⟨g, List.mem_cons_of_mem _ hg, hx⟩) ?_
  rintro d ⟨hd, hx, hmin⟩
  rcases List.mem_cons.1 hd with rfl | hd
  · refine ⟨e', ⟨he', hsub x hx, fun g hg hgx => ?_⟩, hval⟩
    have hle := hmin g (List.mem_cons_of_mem _ hg) hgx
    exact hnext g hg hle (Block.nested hx hgx hle d.1.first_mem)
  · exact ⟨d, ⟨hd, hx, fun g hg hgx => hmin g (List.mem_cons_of_mem _ hg) hgx⟩, rfl⟩

/-- **Split.** An entry may be replaced by its halves, less those that the table has already. -/
theorem lookup_split_iff {hs : List (Block × β)} (hpos : 0 < e.1.level) (hc : Consistent (e :: t))
    (hc' : Consistent (hs ++ t))
    (hhs : ∀ h ∈ hs, (h.1 = e.1.lower ∨ h.1 = e.1.upper) ∧ h.2 = e.2)
    (hlower : ∃ g ∈ hs ++ t, g.1 = e.1.lower) (hupper : ∃ g ∈ hs ++ t, g.1 = e.1.upper) :
    Lookup (e :: t) x v ↔ Lookup (hs ++ t) x v := by
  have hlevel : ∀ h ∈ hs, h.1.level = e.1.level - 1 := fun h hh => by
    rcases (hhs h hh).1 with heq | heq <;> rw [heq] <;> rfl
  have hinside : ∀ h ∈ hs, x ∈ h.1 → x ∈ e.1 := fun h hh hx => by
    rcases (hhs h hh).1 with heq | heq <;> rw [heq] at hx
    · exact (Block.mem_halves hpos).2 (Or.inl hx)
    · exact (Block.mem_halves hpos).2 (Or.inr hx)
  -- an entry of the level of `e` or above gives way to a half of `e`
  have hhalf : x ∈ e.1 → (∀ g ∈ t, x ∈ g.1 → e.1.level ≤ g.1.level) →
      ∃ g, Smallest (hs ++ t) x g ∧ g.2 = e.2 := by
    intro hx hmin
    obtain ⟨g, hg, hgx, hgl⟩ : ∃ g ∈ hs ++ t, x ∈ g.1 ∧ g.1.level = e.1.level - 1 := by
      rcases (Block.mem_halves hpos).1 hx with hl | hu
      · obtain ⟨g, hg, heq⟩ := hlower
        exact ⟨g, hg, heq ▸ hl, heq ▸ rfl⟩
      · obtain ⟨g, hg, heq⟩ := hupper
        exact ⟨g, hg, heq ▸ hu, heq ▸ rfl⟩
    have hghs : g ∈ hs := by
      rcases List.mem_append.1 hg with hg | hg
      · exact hg
      · have := hmin g hg hgx
        omega
    refine ⟨g, ⟨hg, hgx, fun d hd hdx => ?_⟩, (hhs g hghs).2⟩
    rcases List.mem_append.1 hd with hd | hd
    · rw [hgl, hlevel d hd]
    · have := hmin d hd hdx
      omega
  refine lookup_iff_of_smallest hc' ?_ ?_
  · intro g hg hx
    rcases List.mem_append.1 hg with hg | hg
    · exact ⟨e, List.mem_cons_self, hinside g hg hx⟩
    · exact ⟨g, List.mem_cons_of_mem _ hg, hx⟩
  · rintro d ⟨hd, hx, hmin⟩
    have hmint : ∀ g ∈ t, x ∈ g.1 → d.1.level ≤ g.1.level :=
      fun g hg hgx => hmin g (List.mem_cons_of_mem _ hg) hgx
    rcases List.mem_cons.1 hd with rfl | hdt
    · exact hhalf hx hmint
    · by_cases hxe : x ∈ e.1
      · have hle := hmin e List.mem_cons_self hxe
        rcases Nat.lt_or_eq_of_le hle with hlt | heq
        · refine ⟨d, ⟨List.mem_append_right _ hdt, hx, fun g hg hgx => ?_⟩, rfl⟩
          rcases List.mem_append.1 hg with hg | hg
          · have := hlevel g hg
            omega
          · exact hmint g hg hgx
        · have hsame : d.2 = e.2 := hc d hd e List.mem_cons_self (Block.eq_of_mem hx hxe heq)
          rw [hsame]
          exact hhalf hxe fun g hg hgx => heq ▸ hmint g hg hgx
      · refine ⟨d, ⟨List.mem_append_right _ hdt, hx, fun g hg hgx => ?_⟩, rfl⟩
        rcases List.mem_append.1 hg with hg | hg
        · exact absurd (hinside g hg hgx) hxe
        · exact hmint g hg hgx

/-- **Separation.** An entry apart from all others answers for its own points. -/
theorem lookup_apart_iff (h : ∀ g ∈ t, x ∈ e.1 → x ∉ g.1) :
    Lookup (e :: t) x v ↔ (x ∈ e.1 ∧ e.2 = v) ∨ Lookup t x v := by
  constructor
  · rintro ⟨d, ⟨hd, hx, hmin⟩, rfl⟩
    rcases List.mem_cons.1 hd with rfl | hd
    · exact Or.inl ⟨hx, rfl⟩
    · exact Or.inr ⟨d, ⟨hd, hx, fun g hg hgx => hmin g (List.mem_cons_of_mem _ hg) hgx⟩, rfl⟩
  · rintro (⟨hx, rfl⟩ | ⟨d, ⟨hd, hx, hmin⟩, rfl⟩)
    · refine ⟨e, ⟨List.mem_cons_self, hx, fun g hg hgx => ?_⟩, rfl⟩
      rcases List.mem_cons.1 hg with rfl | hg
      · exact le_refl _
      · exact absurd hgx (h g hg hx)
    · refine ⟨d, ⟨List.mem_cons_of_mem _ hd, hx, fun g hg hgx => ?_⟩, rfl⟩
      rcases List.mem_cons.1 hg with rfl | hg
      · exact absurd hx (h d hd hgx)
      · exact hmin g hg hgx

end Table

end PortVpn.Lib
