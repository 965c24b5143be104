import Mathlib.Data.List.Infix

/-!
# The occurrences of a marker

A text is cut at the places where a marker begins. Where no occurrence begins within a part of the
text, the part can be left out (`occurrences_append`); a search from one place on finds the next
occurrence (`occurrences_of_indexFrom`).
-/

set_option autoImplicit false

namespace PortVpn.Lib

universe u

section

variable {α : Type u} [DecidableEq α]

/-- The first place at which `target` begins in a text whose first place is `i`. -/
def indexFrom (target : List α) : Nat → List α → Option Nat
  | _, [] => none
  | i, c :: t => if target.isPrefixOf (c :: t) then some i else indexFrom target (i + 1) t

/-- What begins at each of the occurrences of `target`, up to the end of the text. -/
def occurrences (target : List α) : List α → List (List α)
  | [] => []
  | c :: t =>
      if target.isPrefixOf (c :: t) then (c :: t) :: occurrences target t else occurrences target t

example : occurrences [1, 2] [1, 2, 1, 2, 3] = [[1, 2, 1, 2, 3], [1, 2, 3]] := by decide

variable {target t : List α} {i j : Nat}

theorem occurrences_of_indexFrom_none (h : indexFrom target i t = none) :
    occurrences target t = [] := by
  induction t generalizing i with
  | nil => rfl
  | cons c t ih =>
      rw [indexFrom] at h
      rw [occurrences]
      split at h
      · exact nomatch h
      · rename_i hnot
        rw [if_neg hnot]
        exact ih h

/-- A search finds the first occurrence, and leaves the others behind it. -/
theorem occurrences_of_indexFrom (h : indexFrom target i t = some j) :
    ∃ k, j = i + k ∧ k < t.length ∧
      occurrences target t = t.drop k :: occurrences target (t.drop (k + 1)) := by
  induction t generalizing i with
  | nil => exact nomatch h
  | cons c t ih =>
      rw [indexFrom] at h
      rw [occurrences]
      split at h
      · rename_i hpre
        obtain rfl := Option.some.inj h
        exact ⟨0, rfl, Nat.succ_pos _, by rw [if_pos hpre]; rfl⟩
      · rename_i hnot
        obtain ⟨k, rfl, hk, hocc⟩ := ih h
        exact ⟨k + 1, by omega, Nat.succ_lt_succ hk, by rw [if_neg hnot]; exact hocc⟩

end

section

variable {α : Type u} {target a : List α} {s : α}

/-- No occurrence of `target` begins in `a`, whatever follows it. -/
structure Clear (target a : List α) : Prop where
  notInfix : ¬ target <:+: a
  last : ∀ c ∈ a.getLast?, c ∉ target

theorem Clear.tail {c : α} (h : Clear target (c :: a)) : Clear target a := by
  refine ⟨fun hin => h.notInfix (hin.trans (List.suffix_cons c a).isInfix), fun d hd => h.last d ?_⟩
  cases a with
  | nil => exact nomatch hd
  | cons e a => rwa [List.getLast?_cons_cons]

theorem Clear.not_prefix {c : α} (h : Clear target (c :: a)) (b : List α) :
    ¬ target <+: c :: a ++ b := by
  intro hpre
  rcases List.prefix_or_prefix_of_prefix hpre (List.prefix_append (c :: a) b) with hin | hlong
  · exact h.notInfix hin.isInfix
  · -- the marker would run over the end of the part
    have hne : c :: a ≠ [] := List.cons_ne_nil c a
    exact h.last _ (List.getLast?_eq_some_getLast hne)
      (hlong.subset (List.getLast_mem hne))

/-- A marker begins nowhere in a part that lacks one of its elements. -/
theorem clear_of_notMem {e : α} (ht : s ∈ target) (ha : s ∉ a) (hlast : a.getLast? = some e)
    (he : e ∉ target) : Clear target a where
  notInfix := fun hin => ha (hin.subset ht)
  last := by
    intro c hc
    rw [hlast] at hc
    exact Option.some.inj hc ▸ he

/-- A marker that does not fit into a line does not begin in it. -/
theorem clear_line (hs : s ∉ target) (hne : target ≠ []) (h : ¬ target <:+: a) :
    Clear target (a ++ [s]) := by
  refine ⟨fun hin => ?_, fun c hc => ?_⟩
  · obtain ⟨front, back, heq⟩ := hin
    rcases List.eq_nil_or_concat' back with rfl | ⟨back, c, rfl⟩
    · -- the last element would belong to the marker
      rw [List.append_nil] at heq
      have hlast : s ∈ (front ++ target).getLast? := by rw [heq, List.getLast?_concat]; rfl
      rw [List.getLast?_append_of_ne_nil front hne] at hlast
      exact hs (List.mem_of_getLast? hlast)
    · rw [← List.append_assoc] at heq
      exact h ⟨front, back, (List.append_inj' heq rfl).1⟩
  · rw [List.getLast?_concat] at hc
    exact Option.some.inj hc ▸ hs

end

section

variable {α : Type u} [DecidableEq α] {target a : List α} {s : α}

theorem occurrences_append (h : Clear target a) (b : List α) :
    occurrences target (a ++ b) = occurrences target b := by
  induction a with
  | nil => rfl
  | cons c a ih =>
      have hnot : ¬ target.isPrefixOf (c :: (a ++ b)) := by
        rw [List.isPrefixOf_iff_prefix]
        exact h.not_prefix b
      rw [List.cons_append, occurrences, if_neg hnot, ih h.tail]

theorem occurrences_lines (hs : s ∉ target) (hne : target ≠ []) {lines : List (List α)}
    (h : ∀ line ∈ lines, ¬ target <:+: line) (b : List α) :
    occurrences target (lines.flatMap (· ++ [s]) ++ b) = occurrences target b := by
  induction lines with
  | nil => rfl
  | cons line lines ih =>
      obtain ⟨hline, hlines⟩ := List.forall_mem_cons.1 h
      rw [List.flatMap_cons, List.append_assoc, occurrences_append (clear_line hs hne hline),
        ih hlines]

/-- A line that is the marker is its only occurrence there. -/
theorem occurrences_target (hs : s ∉ target) (hne : target ≠ []) (b : List α) :
    occurrences target (target ++ s :: b) = (target ++ s :: b) :: occurrences target b := by
  obtain ⟨c, rest, rfl⟩ := List.exists_cons_of_ne_nil hne
  have hrest : ¬ c :: rest <:+: rest := fun hin => Nat.not_succ_le_self _ hin.length_le
  have hpre : (c :: rest).isPrefixOf (c :: (rest ++ s :: b)) = true :=
    List.isPrefixOf_iff_prefix.2 (List.prefix_append _ _)
  have hsplit : rest ++ s :: b = (rest ++ [s]) ++ b := by simp
  rw [List.cons_append, occurrences, if_pos hpre, hsplit,
    occurrences_append (clear_line hs hne hrest)]

end

end PortVpn.Lib
