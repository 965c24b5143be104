import Mathlib.Logic.Relation
import Mathlib.Logic.Function.Basic
import Mathlib.Data.List.Basic

/-!
# Regular expressions with groups

A backtracking matcher tries the ways to match in an order, and a group keeps the text of its last
turn. `ends` lists these ways, the preferred one first, each with what is left of the text and with
what the groups hold; `fullMatch` is the first that leaves nothing.

What a way can be is said once for each constructor. A repetition whose body reads something on
every turn is the closure of its body (`mem_ends_star`, `mem_ends_plus`); from it follow the three
shapes of a row of symbols: without a group, in one group, and with the group inside the repetition,
which keeps the last symbol only (`mem_ends_plus_group`).
-/

set_option autoImplicit false

namespace PortVpn.Lib

universe u

/-- Where a match stands: what is left of the text, and what each group holds. -/
structure Point (α : Type u) where
  rest : List α
  groups : Nat → Option (List α)

/-- A regular expression over classes of symbols. -/
inductive Regex (α : Type u) where
  | symbol (p : α → Bool)
  | seq (r s : Regex α)
  | star (r : Regex α)
  | group (n : Nat) (r : Regex α)

namespace Regex

variable {α : Type u}

/-- One turn or more. -/
def plus (r : Regex α) : Regex α := seq r (star r)

/-- The turns of a greedy repetition: another turn is preferred to an end, and a turn that reads
nothing is not taken. -/
def iterate (turn : Point α → List (Point α)) : Nat → Point α → List (Point α)
  | 0, a => [a]
  | n + 1, a =>
      ((turn a).filter fun b => b.rest.length < a.rest.length).flatMap (iterate turn n) ++ [a]

/-- The ways to match from a point, the preferred one first. -/
def ends : Regex α → Point α → List (Point α)
  | symbol p, a =>
      match a.rest with
      | [] => []
      | c :: rest => if p c then [{ a with rest := rest }] else []
  | seq r s, a => (ends r a).flatMap (ends s)
  | star r, a => iterate (ends r) a.rest.length a
  | group n r, a => (ends r a).map fun b =>
      { b with
        groups := Function.update b.groups n
          (some (a.rest.take (a.rest.length - b.rest.length))) }

/-- The start of a match. -/
def start (t : List α) : Point α := ⟨t, fun _ => none⟩

/-- The groups of the preferred match of the whole text. -/
def fullMatch (r : Regex α) (t : List α) : Option (Nat → Option (List α)) :=
  ((ends r (start t)).find? fun b => b.rest.isEmpty).map Point.groups

/-- Every turn reads something. -/
def Consumes (r : Regex α) : Prop := ∀ ⦃a b : Point α⦄, b ∈ ends r a → b.rest.length < a.rest.length

/-! ## One symbol and one group -/

@[simp] theorem mem_ends_symbol {p : α → Bool} {a b : Point α} :
    b ∈ ends (symbol p) a ↔ ∃ c, p c ∧ a.rest = c :: b.rest ∧ b.groups = a.groups := by
  obtain ⟨rest, groups⟩ := a
  obtain ⟨rest', groups'⟩ := b
  cases rest with
  | nil => simp [ends]
  | cons c rest =>
      simp only [ends, List.cons.injEq]
      constructor
      · intro h
        split at h
        case isTrue hc =>
          cases List.mem_singleton.1 h
          exact ⟨c, hc, ⟨rfl, rfl⟩, rfl⟩
        case isFalse => cases h
      · rintro ⟨d, hd, ⟨rfl, rfl⟩, rfl⟩
        rw [if_pos hd]
        exact List.mem_singleton.2 rfl

@[simp] theorem mem_ends_seq {r s : Regex α} {a c : Point α} :
    c ∈ ends (seq r s) a ↔ ∃ b ∈ ends r a, c ∈ ends s b := by
  simp [ends]

/-- A group holds what its body read. -/
theorem mem_ends_group {n : Nat} {r : Regex α} {a b : Point α} :
    b ∈ ends (group n r) a ↔
      ∃ m ∈ ends r a, b.rest = m.rest ∧
        b.groups = Function.update m.groups n
          (some (a.rest.take (a.rest.length - m.rest.length))) := by
  obtain ⟨rest, groups⟩ := b
  simp only [ends, List.mem_map, Point.mk.injEq]
  constructor
  · rintro ⟨m, hm, rfl, rfl⟩
    exact ⟨m, hm, rfl, rfl⟩
  · rintro ⟨m, hm, rfl, rfl⟩
    exact ⟨m, hm, rfl, rfl⟩

theorem consumes_symbol (p : α → Bool) : Consumes (symbol p) := by
  intro a b hb
  obtain ⟨c, -, hrest, -⟩ := mem_ends_symbol.1 hb
  simp [hrest]

theorem Consumes.group {r : Regex α} (h : Consumes r) (n : Nat) : Consumes (group n r) := by
  intro a b hb
  obtain ⟨m, hm, hrest, -⟩ := mem_ends_group.1 hb
  rw [hrest]
  exact h hm

/-! ## Repetition -/

/-- Enough turns are all turns. -/
theorem mem_iterate {turn : Point α → List (Point α)} {n : Nat} :
    ∀ {a b : Point α}, a.rest.length ≤ n →
      (b ∈ iterate turn n a ↔
        Relation.ReflTransGen (fun x y => y ∈ turn x ∧ y.rest.length < x.rest.length) a b) := by
  induction n with
  | zero =>
      intro a b hn
      rw [iterate, List.mem_singleton, Relation.ReflTransGen.cases_head_iff]
      constructor
      · intro h
        exact Or.inl h.symm
      · rintro (h | ⟨m, ⟨-, hm⟩, -⟩)
        · exact h.symm
        · omega
  | succ n ih =>
      intro a b hn
      -- one turn that consumes something, and then the others
      rw [iterate, List.mem_append, List.mem_singleton, List.mem_flatMap,
        Relation.ReflTransGen.cases_head_iff]
      constructor
      · rintro (⟨m, hm, hb⟩ | h)
        · obtain ⟨hturn, hlt⟩ := List.mem_filter.1 hm
          have hlt := of_decide_eq_true hlt
          exact Or.inr ⟨m, ⟨hturn, hlt⟩, (ih (by omega)).1 hb⟩
        · exact Or.inl h.symm
      · rintro (h | ⟨m, ⟨hturn, hlt⟩, hb⟩)
        · exact Or.inr h.symm
        · exact Or.inl ⟨m, List.mem_filter.2 ⟨hturn, decide_eq_true hlt⟩, (ih (by omega)).2 hb⟩

theorem mem_ends_star {r : Regex α} (hr : Consumes r) {a b : Point α} :
    b ∈ ends (star r) a ↔ Relation.ReflTransGen (fun x y => y ∈ ends r x) a b := by
  have hturn : (fun x y => y ∈ ends r x ∧ y.rest.length < x.rest.length) =
      fun x y => y ∈ ends r x := by
    funext x y
    exact propext ⟨And.left, fun h => ⟨h, hr h⟩⟩
  rw [ends, mem_iterate (Nat.le_refl _), hturn]

theorem mem_ends_plus {r : Regex α} (hr : Consumes r) {a b : Point α} :
    b ∈ ends (plus r) a ↔ Relation.TransGen (fun x y => y ∈ ends r x) a b := by
  rw [plus, mem_ends_seq, Relation.TransGen.head'_iff]
  constructor
  · rintro ⟨m, hm, hb⟩
    exact ⟨m, hm, (mem_ends_star hr).1 hb⟩
  · rintro ⟨m, hm, hb⟩
    exact ⟨m, hm, (mem_ends_star hr).2 hb⟩

/-! ## Rows of one class -/

theorem reads_row {p : α → Bool} {groups : Nat → Option (List α)} :
    ∀ {w rest : List α}, (∀ c ∈ w, p c) →
      Relation.ReflTransGen (fun x y => y ∈ ends (symbol p) x) ⟨w ++ rest, groups⟩ ⟨rest, groups⟩ := by
  intro w
  induction w with
  | nil =>
      intro rest _
      exact Relation.ReflTransGen.refl
  | cons c w ih =>
      intro rest hw
      apply Relation.ReflTransGen.head _ (ih fun x hx => hw x (List.mem_cons_of_mem c hx))
      exact mem_ends_symbol.2 ⟨c, hw c List.mem_cons_self, rfl, rfl⟩

theorem row_of_reads {p : α → Bool} {a b : Point α}
    (h : Relation.ReflTransGen (fun x y => y ∈ ends (symbol p) x) a b) :
    b.groups = a.groups ∧ ∃ w, (∀ c ∈ w, p c) ∧ a.rest = w ++ b.rest := by
  induction h with
  | refl => exact ⟨rfl, [], by simp, rfl⟩
  | tail _ hlast ih =>
      obtain ⟨hgroups, w, hw, hrest⟩ := ih
      obtain ⟨c, hc, hread, hkept⟩ := mem_ends_symbol.1 hlast
      refine ⟨hkept.trans hgroups, w ++ [c], ?_, by rw [hrest, hread]; simp⟩
      intro x hx
      rcases List.mem_append.1 hx with hx | hx
      · exact hw x hx
      · exact List.mem_singleton.1 hx ▸ hc

theorem mem_ends_star_symbol {p : α → Bool} {a b : Point α} :
    b ∈ ends (star (symbol p)) a ↔
      b.groups = a.groups ∧ ∃ w, (∀ c ∈ w, p c) ∧ a.rest = w ++ b.rest := by
  rw [mem_ends_star (consumes_symbol p)]
  constructor
  · exact row_of_reads
  · rintro ⟨hgroups, w, hw, hrest⟩
    obtain ⟨rest, groups⟩ := a
    obtain ⟨rest', groups'⟩ := b
    cases hgroups
    cases hrest
    exact reads_row hw

theorem mem_ends_plus_symbol {p : α → Bool} {a b : Point α} :
    b ∈ ends (plus (symbol p)) a ↔
      b.groups = a.groups ∧ ∃ w, w ≠ [] ∧ (∀ c ∈ w, p c) ∧ a.rest = w ++ b.rest := by
  rw [plus, mem_ends_seq]
  constructor
  · rintro ⟨m, hm, hb⟩
    obtain ⟨c, hc, hread, hgroups⟩ := mem_ends_symbol.1 hm
    obtain ⟨hkept, w, hw, hrest⟩ := mem_ends_star_symbol.1 hb
    refine ⟨hkept.trans hgroups, c :: w, List.cons_ne_nil c w, ?_, by rw [hread, hrest]; rfl⟩
    intro x hx
    rcases List.mem_cons.1 hx with rfl | hx
    · exact hc
    · exact hw x hx
  · rintro ⟨hgroups, w, hne, hw, hrest⟩
    cases w with
    | nil => exact absurd rfl hne
    | cons c w =>
        refine ⟨⟨w ++ b.rest, a.groups⟩, ?_, ?_⟩
        · exact mem_ends_symbol.2 ⟨c, hw c List.mem_cons_self, hrest, rfl⟩
        · exact mem_ends_star_symbol.2
            ⟨hgroups, w, fun x hx => hw x (List.mem_cons_of_mem c hx), rfl⟩

/-- A group around a repetition holds the whole row. -/
theorem mem_ends_group_plus {p : α → Bool} {n : Nat} {a b : Point α} :
    b ∈ ends (group n (plus (symbol p))) a ↔
      ∃ w, w ≠ [] ∧ (∀ c ∈ w, p c) ∧ a.rest = w ++ b.rest ∧
        b.groups = Function.update a.groups n (some w) := by
  rw [mem_ends_group]
  constructor
  · rintro ⟨m, hm, hrest, hgroups⟩
    obtain ⟨hkept, w, hne, hw, hread⟩ := mem_ends_plus_symbol.1 hm
    refine ⟨w, hne, hw, by rw [hrest, hread], ?_⟩
    rw [hgroups, hkept, hread]
    simp
  · rintro ⟨w, hne, hw, hread, hgroups⟩
    refine ⟨⟨b.rest, a.groups⟩, mem_ends_plus_symbol.2 ⟨rfl, w, hne, hw, hread⟩, rfl, ?_⟩
    rw [hgroups, hread]
    simp

theorem mem_ends_group_star {p : α → Bool} {n : Nat} {a b : Point α} :
    b ∈ ends (group n (star (symbol p))) a ↔
      ∃ w, (∀ c ∈ w, p c) ∧ a.rest = w ++ b.rest ∧
        b.groups = Function.update a.groups n (some w) := by
  rw [mem_ends_group]
  constructor
  · rintro ⟨m, hm, hrest, hgroups⟩
    obtain ⟨hkept, w, hw, hread⟩ := mem_ends_star_symbol.1 hm
    refine ⟨w, hw, by rw [hrest, hread], ?_⟩
    rw [hgroups, hkept, hread]
    simp
  · rintro ⟨w, hw, hread, hgroups⟩
    refine ⟨⟨b.rest, a.groups⟩, mem_ends_star_symbol.2 ⟨rfl, w, hw, hread⟩, rfl, ?_⟩
    rw [hgroups, hread]
    simp

theorem mem_ends_group_symbol {p : α → Bool} {n : Nat} {a b : Point α} :
    b ∈ ends (group n (symbol p)) a ↔
      ∃ c, p c ∧ a.rest = c :: b.rest ∧ b.groups = Function.update a.groups n (some [c]) := by
  rw [mem_ends_group]
  constructor
  · rintro ⟨m, hm, hrest, hgroups⟩
    obtain ⟨c, hc, hread, hkept⟩ := mem_ends_symbol.1 hm
    refine ⟨c, hc, by rw [hrest, hread], ?_⟩
    rw [hgroups, hkept, hread]
    simp
  · rintro ⟨c, hc, hread, hgroups⟩
    refine ⟨⟨b.rest, a.groups⟩, mem_ends_symbol.2 ⟨c, hc, hread, rfl⟩, rfl, ?_⟩
    rw [hgroups, hread]
    simp

/-- A group inside a repetition holds the last symbol of the row. -/
theorem mem_ends_plus_group {p : α → Bool} {n : Nat} {a b : Point α} :
    b ∈ ends (plus (group n (symbol p))) a ↔
      ∃ w c, (∀ x ∈ w, p x) ∧ p c ∧ a.rest = w ++ c :: b.rest ∧
        b.groups = Function.update a.groups n (some [c]) := by
  rw [mem_ends_plus ((consumes_symbol p).group n)]
  constructor
  · intro h
    induction h with
    | single hfirst =>
        obtain ⟨c, hc, hread, hgroups⟩ := mem_ends_group_symbol.1 hfirst
        exact ⟨[], c, by simp, hc, hread, hgroups⟩
    | tail _ hlast ih =>
        obtain ⟨w, c, hw, hc, hrest, hgroups⟩ := ih
        obtain ⟨d, hd, hread, hlater⟩ := mem_ends_group_symbol.1 hlast
        refine ⟨w ++ [c], d, ?_, hd, by rw [hrest, hread]; simp, ?_⟩
        · intro x hx
          rcases List.mem_append.1 hx with hx | hx
          · exact hw x hx
          · exact List.mem_singleton.1 hx ▸ hc
        · rw [hlater, hgroups, Function.update_idem]
  · rintro ⟨w, c, hw, hc, hrest, hgroups⟩
    -- the induction is on the row, from its front: every turn writes the group again
    induction w generalizing a with
    | nil => exact Relation.TransGen.single (mem_ends_group_symbol.2 ⟨c, hc, hrest, hgroups⟩)
    | cons d w ih =>
        let m : Point α := ⟨w ++ c :: b.rest, Function.update a.groups n (some [d])⟩
        have hfirst : m ∈ ends (group n (symbol p)) a :=
          mem_ends_group_symbol.2 ⟨d, hw d List.mem_cons_self, hrest, rfl⟩
        apply Relation.TransGen.head hfirst
        apply ih (fun x hx => hw x (List.mem_cons_of_mem d hx)) rfl
        rw [hgroups, Function.update_idem]

/-! ## The preferred match -/

theorem exists_of_fullMatch {r : Regex α} {t : List α} {groups : Nat → Option (List α)}
    (h : fullMatch r t = some groups) : (⟨[], groups⟩ : Point α) ∈ ends r (start t) := by
  rw [fullMatch, Option.map_eq_some_iff] at h
  obtain ⟨b, hfind, rfl⟩ := h
  have hrest : b.rest = [] := by simpa using List.find?_some hfind
  rw [← hrest]
  exact List.mem_of_find?_eq_some hfind

/-- The matcher gives up only when there is no way to match the whole text. -/
theorem exists_fullMatch {r : Regex α} {t : List α} {groups : Nat → Option (List α)}
    (h : (⟨[], groups⟩ : Point α) ∈ ends r (start t)) :
    ∃ groups', fullMatch r t = some groups' := by
  cases hm : fullMatch r t with
  | some groups' => exact ⟨groups', rfl⟩
  | none =>
      rw [fullMatch, Option.map_eq_none_iff, List.find?_eq_none] at hm
      exact absurd rfl (hm _ h)

end Regex

end PortVpn.Lib
