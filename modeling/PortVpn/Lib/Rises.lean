import Mathlib.Algebra.Order.Group.Defs
import Mathlib.Algebra.BigOperators.Group.List.Basic
import Mathlib.Data.List.Chain
import Mathlib.Tactic.Abel

/-!
# The rises of a counter that starts again

A reader of a counter adds up by how much the counter has risen from each reading to the next, and
takes a fall for no change. While one counter is read that never falls, the rises add up to what it
counts (`sum_rises_of_isChain`). Where counters follow one another, each from its own start, a rise
is missed at every change: as much as the new counter has when it is first read, but not more than
the old one had at the end (`sum_rises_counters`).
-/

set_option autoImplicit false

namespace PortVpn.Lib

universe u

/-- The readings of a counter that never falls. -/
structure Counter (α : Type u) [LE α] where
  first : α
  later : List α
  sorted : (first :: later).IsChain (· ≤ ·)

namespace Counter

variable {α : Type u} [Preorder α]

def readings (c : Counter α) : List α := c.first :: c.later

def last (c : Counter α) : α := c.later.getLastD c.first

theorem first_le_last (c : Counter α) : c.first ≤ c.last := by
  obtain ⟨first, later, sorted⟩ := c
  change first ≤ later.getLastD first
  induction later generalizing first with
  | nil => exact le_refl first
  | cons x later ih =>
      obtain ⟨hle, hrest⟩ := List.isChain_cons_cons.1 sorted
      rw [List.getLastD_cons]
      exact hle.trans (ih x hrest)

end Counter

variable {α : Type u} [AddCommGroup α] [LinearOrder α]

/-- From each reading to the next, and to the first one from `p`: the rise, or nothing. -/
def rises : α → List α → List α
  | _, [] => []
  | p, x :: xs => max 0 (x - p) :: rises x xs

theorem rises_append (xs ys : List α) (p : α) :
    rises p (xs ++ ys) = rises p xs ++ rises (xs.getLastD p) ys := by
  induction xs generalizing p with
  | nil => rfl
  | cons x xs ih => rw [List.cons_append, rises, rises, ih, List.cons_append, List.getLastD_cons]

variable [IsOrderedAddMonoid α]

theorem sum_rises_of_isChain {xs : List α} :
    ∀ {p : α}, (p :: xs).IsChain (· ≤ ·) → (rises p xs).sum = xs.getLastD p - p := by
  induction xs with
  | nil =>
      intro p _
      exact (sub_self p).symm
  | cons x xs ih =>
      intro p h
      obtain ⟨hle, hrest⟩ := List.isChain_cons_cons.1 h
      rw [rises, List.sum_cons, ih hrest, max_eq_right (sub_nonneg.2 hle), List.getLastD_cons]
      abel

namespace Counter

/-- What is missed of counters that follow one another, when the last reading was `p`. -/
def missed : α → List (Counter α) → α
  | _, [] => 0
  | p, c :: cs => min p c.first + missed c.last cs

/-- One counter after a reading `p`: its count at the end, less what is missed. -/
theorem sum_rises_readings (p : α) (c : Counter α) :
    (rises p c.readings).sum = c.last - min p c.first := by
  rw [readings, rises, List.sum_cons, sum_rises_of_isChain c.sorted]
  change max 0 (c.first - p) + (c.last - c.first) = _
  rcases le_total p c.first with h | h
  · rw [max_eq_right (sub_nonneg.2 h), min_eq_left h]
    abel
  · rw [max_eq_left (sub_nonpos.2 h), min_eq_right h, zero_add]

/-- **What the rises add up to.** All that the counters count, less what is missed where one follows
another. -/
theorem sum_rises_counters (cs : List (Counter α)) (p : α) :
    (rises p (cs.flatMap readings)).sum = (cs.map last).sum - missed p cs := by
  induction cs generalizing p with
  | nil => simp [rises, missed]
  | cons c cs ih =>
      have hlast : c.readings.getLastD p = c.last := List.getLastD_cons
      rw [List.flatMap_cons, rises_append, List.sum_append, sum_rises_readings, hlast, ih,
        List.map_cons, List.sum_cons, missed]
      abel

/-- Of counters that are never negative something is missed at each change, or nothing. -/
theorem missed_nonneg {cs : List (Counter α)} (h : ∀ c ∈ cs, 0 ≤ c.first) :
    ∀ {p : α}, 0 ≤ p → 0 ≤ missed p cs := by
  induction cs with
  | nil => intro p _; exact le_refl 0
  | cons c cs ih =>
      intro p hp
      have hfirst : 0 ≤ c.first := h c List.mem_cons_self
      have hrest := ih (fun c' hc' => h c' (List.mem_cons_of_mem _ hc'))
        (hfirst.trans c.first_le_last)
      exact add_nonneg (le_min hp hfirst) hrest

theorem missed_cons_eq_zero_iff {c : Counter α} {cs : List (Counter α)} {p : α}
    (h : ∀ c' ∈ c :: cs, 0 ≤ c'.first) (hp : 0 ≤ p) :
    missed p (c :: cs) = 0 ↔ (p = 0 ∨ c.first = 0) ∧ missed c.last cs = 0 := by
  have hfirst : 0 ≤ c.first := h c List.mem_cons_self
  have hrest : 0 ≤ missed c.last cs :=
    missed_nonneg (fun c' hc' => h c' (List.mem_cons_of_mem _ hc')) (hfirst.trans c.first_le_last)
  rw [missed, add_eq_zero_iff_of_nonneg (le_min hp hfirst) hrest]
  refine and_congr_left fun _ => ?_
  constructor
  · intro hmin
    rcases min_choice p c.first with heq | heq
    · exact Or.inl (heq ▸ hmin)
    · exact Or.inr (heq ▸ hmin)
  · rintro (rfl | hzero)
    · exact min_eq_left hfirst
    · rw [hzero]
      exact min_eq_right hp

/-- Of counters that are never negative nothing is missed exactly if each one is first read at zero,
or follows one that was last read at zero. -/
theorem missed_eq_zero_iff {cs : List (Counter α)} (h : ∀ c ∈ cs, 0 ≤ c.first) :
    missed 0 cs = 0 ↔ cs.IsChain fun c next => c.last = 0 ∨ next.first = 0 := by
  cases cs with
  | nil => simp [missed]
  | cons c cs =>
      rw [missed_cons_eq_zero_iff h (le_refl 0)]
      simp only [true_or, true_and]
      induction cs generalizing c with
      | nil => simp [missed]
      | cons next cs ih =>
          have hlast : 0 ≤ c.last := (h c List.mem_cons_self).trans c.first_le_last
          have hrest : ∀ c' ∈ next :: cs, 0 ≤ c'.first :=
            fun c' hc' => h c' (List.mem_cons_of_mem _ hc')
          rw [missed_cons_eq_zero_iff hrest hlast, List.isChain_cons_cons, ih next hrest]

end Counter

end PortVpn.Lib
