import Mathlib.Data.List.Induction

/-!
# Cells that are filled once

A state holds cells, each with a value or empty. A step may fill an empty cell and may drop a full
one, and it never changes a value. After any list of steps a cell holds what it was filled with at
the last step that filled it, and no step after that one has dropped it (`held_iff`).
-/

set_option autoImplicit false

namespace PortVpn.Lib

universe u v w x

/-- The cells of a state: a full cell keeps its value in every step that does not drop it. -/
structure Cells (σ : Type u) (ℓ : Type v) (κ : Type w) (ν : Type x) where
  next : σ → ℓ → σ
  cell : σ → κ → Option ν
  drops : ℓ → κ → Prop
  cell_kept : ∀ s l k v, cell s k = some v → ¬ drops l k → cell (next s l) k = some v
  cell_dropped : ∀ s l k, drops l k → cell (next s l) k = none

namespace Cells

variable {σ : Type u} {ℓ : Type v} {κ : Type w} {ν : Type x} (m : Cells σ ℓ κ ν)
variable {s : σ} {ls : List ℓ} {l : ℓ} {k : κ} {v : ν}

/-- The state after a list of steps. -/
def after (s : σ) (ls : List ℓ) : σ := ls.foldl m.next s

@[simp] theorem after_nil (s : σ) : m.after s [] = s := rfl

@[simp] theorem after_concat (s : σ) (ls : List ℓ) (l : ℓ) :
    m.after s (ls ++ [l]) = m.next (m.after s ls) l := by
  simp [after]

/-- The step fills the cell with `v`. -/
def Fills (s : σ) (l : ℓ) (k : κ) (v : ν) : Prop :=
  m.cell s k = none ∧ m.cell (m.next s l) k = some v

/-- The cell is filled with `v` at one of the steps, and is not dropped after it. -/
def FilledWith (s : σ) (ls : List ℓ) (k : κ) (v : ν) : Prop :=
  ∃ before l later, ls = before ++ l :: later ∧ m.Fills (m.after s before) l k v ∧
    ∀ x ∈ later, ¬ m.drops x k

/-- What one more step makes of a cell. -/
theorem cell_next_iff : m.cell (m.next s l) k = some v ↔
    m.cell s k = some v ∧ ¬ m.drops l k ∨ m.Fills s l k v := by
  by_cases hdrop : m.drops l k
  · simp [Fills, m.cell_dropped s l k hdrop, hdrop]
  · cases hcell : m.cell s k with
    | none => simp [Fills, hcell]
    | some w => simp [Fills, hcell, m.cell_kept s l k w hcell hdrop, hdrop]

/-- One more step fills the cell, or leaves it as it was filled. -/
theorem filledWith_concat : m.FilledWith s (ls ++ [l]) k v ↔
    m.FilledWith s ls k v ∧ ¬ m.drops l k ∨ m.Fills (m.after s ls) l k v := by
  constructor
  · rintro ⟨before, x, later, heq, hfills, hdrops⟩
    cases later using List.reverseRecOn with
    | nil =>
        obtain ⟨rfl, hx⟩ := List.append_inj' heq rfl
        obtain rfl := (List.singleton_inj.1 hx).symm
        exact Or.inr hfills
    | append_singleton later y =>
        rw [← List.cons_append, ← List.append_assoc] at heq
        obtain ⟨rfl, hy⟩ := List.append_inj' heq rfl
        obtain rfl := (List.singleton_inj.1 hy).symm
        refine Or.inl ⟨⟨before, x, later, rfl, hfills, ?_⟩, hdrops y (by simp)⟩
        intro z hz
        exact hdrops z (List.mem_append_left _ hz)
  · rintro (⟨⟨before, x, later, rfl, hfills, hdrops⟩, hdrop⟩ | hfills)
    · refine ⟨before, x, later ++ [l], by simp, hfills, ?_⟩
      intro z hz
      rw [List.mem_append, List.mem_singleton] at hz
      rcases hz with hz | rfl
      · exact hdrops z hz
      · exact hdrop
    · exact ⟨ls, l, [], rfl, hfills, by simp⟩

/-- **What a cell holds.** A cell that was empty at the start holds a value exactly when it was
filled with it and has not been dropped since. -/
theorem held_iff (h : m.cell s k = none) (ls : List ℓ) :
    m.cell (m.after s ls) k = some v ↔ m.FilledWith s ls k v := by
  induction ls using List.reverseRecOn with
  | nil =>
      constructor
      · intro hv
        rw [after_nil, h] at hv
        exact nomatch hv
      · rintro ⟨before, x, later, heq, -⟩
        simp at heq
  | append_singleton ls l ih =>
      rw [after_concat, cell_next_iff, filledWith_concat, ih]

end Cells

end PortVpn.Lib
