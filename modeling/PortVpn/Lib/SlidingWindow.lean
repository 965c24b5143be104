import Mathlib.Data.List.TakeWhile
import Mathlib.Order.Lattice

/-!
# A sliding window over a log

Points are recorded in the order of their times, and a list of recent points is kept beside the
log: a new point goes to its end, and from time to time the points up to a cutoff are dropped from
its front. However often that happens and wherever it is left out, the kept list is a suffix of the
log that holds every point after the last cutoff (`Retains`), and after points have been dropped it
holds exactly those (`Retains.dropWhile_eq_filter`).
-/

set_option autoImplicit false

namespace PortVpn.Lib

universe u v

variable {α : Type u} {τ : Type v} [LinearOrder τ] {time : α → τ}

/-- `kept` is what dropping points up to the cutoff from the front has left of `recorded`, a log in
the order of time that ends no later than `latest`. -/
structure Retains (time : α → τ) (recorded kept : List α) (cutoff latest : τ) : Prop where
  dropped : ∃ old, recorded = old ++ kept ∧ ∀ p ∈ old, time p ≤ cutoff
  ordered : recorded.Pairwise fun p q => time p ≤ time q
  bounded : ∀ p ∈ recorded, time p ≤ latest

namespace Retains

variable {recorded kept : List α} {cutoff latest : τ}

theorem nil (cutoff latest : τ) : Retains time [] [] cutoff latest :=
  ⟨⟨[], rfl, by simp⟩, List.Pairwise.nil, by simp⟩

/-- Time passes. -/
theorem mono (h : Retains time recorded kept cutoff latest) {cutoff' latest' : τ}
    (hc : cutoff ≤ cutoff') (hl : latest ≤ latest') :
    Retains time recorded kept cutoff' latest' := by
  obtain ⟨old, hold, hle⟩ := h.dropped
  refine ⟨⟨old, hold, fun p hp => (hle p hp).trans hc⟩, h.ordered, ?_⟩
  exact fun p hp => (h.bounded p hp).trans hl

/-- A point is recorded. -/
theorem concat (h : Retains time recorded kept cutoff latest) {p : α} (hp : latest ≤ time p) :
    Retains time (recorded ++ [p]) (kept ++ [p]) cutoff (time p) := by
  obtain ⟨old, rfl, hle⟩ := h.dropped
  have hbound : ∀ q ∈ old ++ kept, time q ≤ time p := fun q hq => (h.bounded q hq).trans hp
  refine ⟨⟨old, by rw [List.append_assoc], hle⟩, ?_, ?_⟩
  · rw [List.pairwise_append]
    refine ⟨h.ordered, List.pairwise_singleton _ _, ?_⟩
    intro q hq r hr
    rw [List.mem_singleton.1 hr]
    exact hbound q hq
  · intro q hq
    rcases List.mem_append.1 hq with hq | hq
    · exact hbound q hq
    · rw [List.mem_singleton.1 hq]

/-- Points up to a later cutoff are dropped. -/
theorem dropWhile (h : Retains time recorded kept cutoff latest) {c : τ} (hc : cutoff ≤ c) :
    Retains time recorded (kept.dropWhile fun p => decide (time p ≤ c)) c latest := by
  obtain ⟨old, hold, hle⟩ := h.dropped
  refine ⟨⟨old ++ kept.takeWhile fun p => decide (time p ≤ c), ?_, ?_⟩, h.ordered, h.bounded⟩
  · rw [List.append_assoc, List.takeWhile_append_dropWhile, hold]
  · intro p hp
    rcases List.mem_append.1 hp with hp | hp
    · exact (hle p hp).trans hc
    · simpa using List.mem_takeWhile_imp hp

/-- On points in the order of time, dropping those up to a cutoff from the front drops all of
them. -/
theorem dropWhile_eq_filter_of_ordered {l : List α} (c : τ)
    (h : l.Pairwise fun p q => time p ≤ time q) :
    l.dropWhile (fun p => decide (time p ≤ c)) = l.filter fun p => decide (c < time p) := by
  induction l with
  | nil => rfl
  | cons p l ih =>
      rw [List.pairwise_cons] at h
      by_cases hp : time p ≤ c
      · rw [List.dropWhile_cons_of_pos (by simpa using hp), ih h.2,
          List.filter_cons_of_neg (by simpa using hp)]
      · rw [List.dropWhile_cons_of_neg (by simpa using hp), eq_comm, List.filter_eq_self]
        intro q hq
        rcases List.mem_cons.1 hq with rfl | hq
        · simpa using hp
        · simpa using (not_le.1 hp).trans_le (h.1 q hq)

/-- **The window is exact.** What dropping leaves are the points recorded after the cutoff. -/
theorem dropWhile_eq_filter (h : Retains time recorded kept cutoff latest) {c : τ}
    (hc : cutoff ≤ c) :
    kept.dropWhile (fun p => decide (time p ≤ c)) =
      recorded.filter fun p => decide (c < time p) := by
  obtain ⟨old, rfl, hle⟩ := h.dropped
  have hold : old.filter (fun p => decide (c < time p)) = [] := by
    rw [List.filter_eq_nil_iff]
    intro p hp
    simpa using (hle p hp).trans hc
  rw [List.filter_append, hold, List.nil_append]
  exact dropWhile_eq_filter_of_ordered c (List.pairwise_append.1 h.ordered).2.1

end Retains

end PortVpn.Lib
