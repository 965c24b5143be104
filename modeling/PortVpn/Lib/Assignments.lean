import Mathlib.Logic.Function.Basic
import PortVpn.Lib.Machine

/-!
# Lists of assignments, and steps that assign or fail

A state is a value for every variable. A list of assignments is carried out in its order, so the
last one to a variable counts (`assign_of_last`); a state stays as it is exactly when the last ones
give it what it has (`assign_eq_self_iff`).

`run` takes steps that assign a variable, do nothing or fail, and stops at the first failure with
what was assigned before it. Where the outcome of every step can be told from the start, `run_cases`
says what a run does: all of it, or everything before the first step that fails.
-/

set_option autoImplicit false

namespace PortVpn.Lib

universe u v w x

variable {ι : Type u} {V : ι → Type v}

/-- A variable and the value it gets. -/
abbrev Assignment (V : ι → Type v) := Σ i, V i

/-- The last assignment to the variable. -/
def Last (i : ι) (v : V i) : List (Assignment V) → Prop :=
  Since (fun x => x = ⟨i, v⟩) fun x => x.1 = i

theorem exists_last {i : ι} {l : List (Assignment V)} (h : ∃ x ∈ l, x.1 = i) : ∃ v, Last i v l := by
  induction l using List.reverseRecOn with
  | nil =>
      obtain ⟨x, hx, -⟩ := h
      cases hx
  | append_singleton l x ih =>
      by_cases hx : x.1 = i
      · subst hx
        exact ⟨x.2, l, x, [], rfl, rfl, by simp⟩
      · obtain ⟨y, hy, hyi⟩ := h
        rcases List.mem_append.1 hy with hy | hy
        · obtain ⟨v, hv⟩ := ih ⟨y, hy, hyi⟩
          exact ⟨v, since_append.2 (Or.inr ⟨by simpa using hx, hv⟩)⟩
        · exact absurd (List.mem_singleton.1 hy ▸ hyi) hx

section

variable [DecidableEq ι]

/-- The state after the assignments. -/
def assign (s : ∀ i, V i) (l : List (Assignment V)) : ∀ i, V i :=
  l.foldl (fun s x => Function.update s x.1 x.2) s

variable {s : ∀ i, V i} {l l' : List (Assignment V)} {i : ι} {v : V i}

@[simp] theorem assign_nil : assign s ([] : List (Assignment V)) = s := rfl

theorem assign_cons (x : Assignment V) :
    assign s (x :: l) = assign (Function.update s x.1 x.2) l := rfl

theorem assign_append : assign s (l ++ l') = assign (assign s l) l' := List.foldl_append

theorem assign_of_not_mem (h : ∀ x ∈ l, x.1 ≠ i) : assign s l i = s i := by
  induction l generalizing s with
  | nil => rfl
  | cons x l ih =>
      rw [assign_cons, ih fun y hy => h y (List.mem_cons_of_mem x hy)]
      exact Function.update_of_ne (h x List.mem_cons_self).symm _ _

theorem assign_of_last (h : Last i v l) : assign s l i = v := by
  obtain ⟨before, x, after, rfl, rfl, hafter⟩ := h
  rw [assign_append, assign_cons, assign_of_not_mem hafter, Function.update_self]

/-- Where all assignments to a variable give one value, their order does not matter. -/
theorem assign_of_forall (hmem : ⟨i, v⟩ ∈ l) (h : ∀ v', ⟨i, v'⟩ ∈ l → v' = v) :
    assign s l i = v := by
  obtain ⟨v', hv'⟩ := exists_last ⟨_, hmem, rfl⟩
  obtain ⟨before, x, after, rfl, rfl, -⟩ := id hv'
  rw [assign_of_last hv']
  exact h v' (by simp)

theorem assign_eq_self_iff : assign s l = s ↔ ∀ i v, Last i v l → s i = v := by
  constructor
  · intro h i v hlast
    rw [← assign_of_last (s := s) hlast, h]
  · intro h
    funext i
    by_cases hmem : ∃ x ∈ l, x.1 = i
    · obtain ⟨v, hv⟩ := exists_last hmem
      rw [assign_of_last hv, h i v hv]
    · apply assign_of_not_mem
      intro x hx hxi
      exact hmem ⟨x, hx, hxi⟩

end

/-! ## Steps that may fail -/

variable {γ : Type w} {ε : Type x}

/-- What steps assign that succeed. -/
def given (g : γ → Except ε (Option (Assignment V))) (cs : List γ) : List (Assignment V) :=
  cs.flatMap fun c => match g c with
    | .error _ => []
    | .ok x => x.toList

/-- All steps succeed. -/
def Succeed (g : γ → Except ε (Option (Assignment V))) (cs : List γ) : Prop :=
  ∀ c ∈ cs, ∃ x, g c = .ok x

variable {g : γ → Except ε (Option (Assignment V))} {cs : List γ}

theorem mem_given {x : Assignment V} : x ∈ given g cs ↔ ∃ c ∈ cs, g c = .ok (some x) := by
  rw [given, List.mem_flatMap]
  refine exists_congr fun c => and_congr_right fun _ => ?_
  cases g c with
  | error e => simp
  | ok y => simp

/-- There is one first step that fails. -/
theorem first_failure_unique {b b' a a' : List γ} {c c' : γ} {e e' : ε}
    (heq : b ++ c :: a = b' ++ c' :: a') (hb : Succeed g b) (hb' : Succeed g b')
    (hc : g c = .error e) (hc' : g c' = .error e') : b = b' ∧ c = c' := by
  rcases List.append_eq_append_iff.1 heq with ⟨t, ht, hrest⟩ | ⟨t, ht, hrest⟩
  · cases t with
    | nil => exact ⟨by simpa using ht.symm, (List.cons.inj hrest).1⟩
    | cons d t =>
        obtain ⟨rfl, -⟩ := List.cons.inj hrest
        obtain ⟨x, hx⟩ := hb' c (by simp [ht])
        rw [hc] at hx
        cases hx
  · cases t with
    | nil => exact ⟨by simpa using ht, (List.cons.inj hrest).1.symm⟩
    | cons d t =>
        obtain ⟨rfl, -⟩ := List.cons.inj hrest
        obtain ⟨x, hx⟩ := hb c' (by simp [ht])
        rw [hc'] at hx
        cases hx

section

variable [DecidableEq ι]

/-- The steps in their order, up to the first one that fails. -/
def run (f : (∀ i, V i) → γ → Except ε (Option (Assignment V))) :
    (∀ i, V i) → List γ → (∀ i, V i) × Option ε
  | s, [] => (s, none)
  | s, c :: cs =>
      match f s c with
      | .error e => (s, some e)
      | .ok x => run f (assign s x.toList) cs

variable {f : (∀ i, V i) → γ → Except ε (Option (Assignment V))} {s : ∀ i, V i}

/-- The rule for runs, behind steps that have been taken. -/
theorem run_cases_from {rest : List γ} :
    ∀ before : List γ, cs = before ++ rest → Succeed g before →
      (∀ b c a, cs = b ++ c :: a → Succeed g b → f (assign s (given g b)) c = g c) →
      (Succeed g cs ∧ run f (assign s (given g before)) rest = (assign s (given g cs), none)) ∨
        ∃ b c a e, cs = b ++ c :: a ∧ Succeed g b ∧ g c = .error e ∧
          run f (assign s (given g before)) rest = (assign s (given g b), some e) := by
  induction rest with
  | nil =>
      intro before hcs hbefore _
      rw [List.append_nil] at hcs
      subst hcs
      exact Or.inl ⟨hbefore, rfl⟩
  | cons c rest ih =>
      intro before hcs hbefore hstep
      have hc := hstep before c rest hcs hbefore
      rw [run, hc]
      cases hg : g c with
      | error e => exact Or.inr ⟨before, c, rest, e, hcs, hbefore, hg, rfl⟩
      | ok x =>
          -- one more step has been taken, and what it assigns is given
          have hlater : Succeed g (before ++ [c]) := by
            intro d hd
            rcases List.mem_append.1 hd with hd | hd
            · exact hbefore d hd
            · exact ⟨x, List.mem_singleton.1 hd ▸ hg⟩
          have hgiven : given g (before ++ [c]) = given g before ++ x.toList := by
            simp [given, hg]
          have hrest := ih (before ++ [c]) (by rw [hcs]; simp) hlater hstep
          rwa [hgiven, assign_append] at hrest

/-- A run whose steps can be told from the start takes all of them, or those before the first one
that fails. -/
theorem run_cases
    (hstep : ∀ b c a, cs = b ++ c :: a → Succeed g b → f (assign s (given g b)) c = g c) :
    (Succeed g cs ∧ run f s cs = (assign s (given g cs), none)) ∨
      ∃ b c a e, cs = b ++ c :: a ∧ Succeed g b ∧ g c = .error e ∧
        run f s cs = (assign s (given g b), some e) :=
  run_cases_from [] rfl (by simp [Succeed]) hstep

end

end PortVpn.Lib
