import Mathlib.Data.List.Induction

/-!
# Runs of a machine with labelled steps

A machine takes a label in a state, and either refuses it or moves to a next state and writes
some outputs. A run is a list of labels; `history` lists the steps a run takes, up to the first
label that is refused. A claim about every run is a claim about every step of every history:
`history_inv` carries an invariant along a run whose steps all meet a condition, and
`forall_history_iff` turns an exact condition on single steps into an exact condition on runs.

Where a claim compares a state with what led to it, the invariant is one of the steps taken so far:
`past_inv` and `forall_prefix_iff` are the same two rules for a predicate on histories. Where no
label is ever refused, `forall_prefixes_iff` is the rule for a predicate on the labels.
-/

set_option autoImplicit false

namespace PortVpn.Lib

universe u v w

variable {σ : Type u} {ℓ : Type v} {ω : Type w}

/-- A labelled machine: the next state and the outputs of a label, or `none` where the label is
not enabled. -/
abbrev Machine (σ : Type u) (ℓ : Type v) (ω : Type w) := σ → ℓ → Option (σ × List ω)

/-- One step of a run: the state before it, its label, the state after it and what it writes. -/
structure Step (σ : Type u) (ℓ : Type v) (ω : Type w) where
  pre : σ
  label : ℓ
  post : σ
  out : List ω
  deriving DecidableEq, Repr

/-- The machine takes the step. -/
def Machine.Takes (m : Machine σ ℓ ω) (x : Step σ ℓ ω) : Prop :=
  m x.pre x.label = some (x.post, x.out)

/-- The steps of the run that follows the labels from `s`, up to the first label that is not
enabled. -/
def Machine.history (m : Machine σ ℓ ω) : σ → List ℓ → List (Step σ ℓ ω)
  | _, [] => []
  | s, l :: ls =>
      match m s l with
      | none => []
      | some (t, out) => ⟨s, l, t, out⟩ :: Machine.history m t ls

/-- The states a run visits: its start and the state after each step. -/
def Machine.Visits (m : Machine σ ℓ ω) (s : σ) (ls : List ℓ) (t : σ) : Prop :=
  t = s ∨ ∃ x ∈ m.history s ls, x.post = t

namespace Machine

variable {m : Machine σ ℓ ω}

theorem history_cons_of_none {s : σ} {l : ℓ} (h : m s l = none) (ls : List ℓ) :
    m.history s (l :: ls) = [] := by
  simp [history, h]

theorem history_cons_of_some {s t : σ} {l : ℓ} {out : List ω} (h : m s l = some (t, out))
    (ls : List ℓ) : m.history s (l :: ls) = ⟨s, l, t, out⟩ :: m.history t ls := by
  simp [history, h]

/-- Every step of a history is a step of the machine. -/
theorem takes_of_mem_history {ls : List ℓ} :
    ∀ {s : σ} {x : Step σ ℓ ω}, x ∈ m.history s ls → m.Takes x := by
  induction ls with
  | nil => intro s x hx; simp [history] at hx
  | cons l ls ih =>
      intro s x hx
      cases hm : m s l with
      | none => simp [history_cons_of_none hm] at hx
      | some next =>
          obtain ⟨t, out⟩ := next
          rw [history_cons_of_some hm, List.mem_cons] at hx
          rcases hx with rfl | hx
          · exact hm
          · exact ih hx

/-- The labels of a history are the first ones it is given, up to one that cannot be taken. -/
theorem labels_history_isPrefixOf (s : σ) (ls : List ℓ) :
    (m.history s ls).map Step.label <+: ls := by
  induction ls generalizing s with
  | nil => exact List.prefix_refl []
  | cons l ls ih =>
      cases hm : m s l with
      | none =>
          rw [history_cons_of_none hm]
          exact List.nil_prefix
      | some next =>
          obtain ⟨t, out⟩ := next
          rw [history_cons_of_some hm, List.map_cons]
          exact List.cons_prefix_cons.2 ⟨rfl, ih t⟩

theorem label_mem_of_mem_history {ls : List ℓ} {s : σ} {x : Step σ ℓ ω}
    (hx : x ∈ m.history s ls) : x.label ∈ ls :=
  (labels_history_isPrefixOf s ls).subset (List.mem_map_of_mem hx)

/-- A step of a run in two parts is one of the first part, or its label is one of the second. -/
theorem mem_history_append {p ls : List ℓ} :
    ∀ {s : σ} {x : Step σ ℓ ω}, x ∈ m.history s (p ++ ls) →
      x ∈ m.history s p ∨ x.label ∈ ls := by
  induction p with
  | nil =>
      intro s x hx
      exact Or.inr (label_mem_of_mem_history hx)
  | cons l p ih =>
      intro s x hx
      rw [List.cons_append] at hx
      cases hm : m s l with
      | none => simp [history_cons_of_none hm] at hx
      | some next =>
          obtain ⟨t, out⟩ := next
          rw [history_cons_of_some hm, List.mem_cons] at hx ⊢
          rcases hx with rfl | hx
          · exact Or.inl (Or.inl rfl)
          · rcases ih hx with h | h
            · exact Or.inl (Or.inr h)
            · exact Or.inr h

/-- What the first labels of a run do, the run does. -/
theorem mem_history_mono {p ls : List ℓ} (hp : p <+: ls) :
    ∀ {s : σ} {x : Step σ ℓ ω}, x ∈ m.history s p → x ∈ m.history s ls := by
  obtain ⟨rest, rfl⟩ := hp
  induction p with
  | nil => intro s x hx; simp [history] at hx
  | cons l p ih =>
      intro s x hx
      rw [List.cons_append]
      cases hm : m s l with
      | none => simp [history_cons_of_none hm] at hx
      | some next =>
          obtain ⟨t, out⟩ := next
          rw [history_cons_of_some hm, List.mem_cons] at hx ⊢
          rcases hx with rfl | hx
          · exact Or.inl rfl
          · exact Or.inr (ih hx)

/-- Up to a step of its history a run can be taken, and from there another way. -/
theorem exists_history_after {ls : List ℓ} :
    ∀ {s : σ} {x : Step σ ℓ ω}, x ∈ m.history s ls →
      ∃ p, p <+: ls ∧ ∀ more, ∀ y ∈ m.history x.post more, y ∈ m.history s (p ++ more) := by
  induction ls with
  | nil => intro s x hx; simp [history] at hx
  | cons l ls ih =>
      intro s x hx
      cases hm : m s l with
      | none => simp [history_cons_of_none hm] at hx
      | some next =>
          obtain ⟨t, out⟩ := next
          rw [history_cons_of_some hm, List.mem_cons] at hx
          rcases hx with rfl | hx
          · refine ⟨[l], ⟨ls, rfl⟩, ?_⟩
            intro more y hy
            rw [List.singleton_append, history_cons_of_some hm]
            exact List.mem_cons_of_mem _ hy
          · obtain ⟨p, hp, hafter⟩ := ih hx
            refine ⟨l :: p, List.cons_prefix_cons.2 ⟨rfl, hp⟩, ?_⟩
            intro more y hy
            rw [List.cons_append, history_cons_of_some hm]
            exact List.mem_cons_of_mem _ (hafter more y hy)

variable {I : σ → Prop} {C P : Step σ ℓ ω → Prop}

/-- **Invariant rule.** If the start satisfies `I` and every step that meets `C` keeps it, then
`I` holds before and after every step of a run whose steps all meet `C`. -/
theorem history_inv (hstep : ∀ x, m.Takes x → I x.pre → C x → I x.post) {ls : List ℓ} :
    ∀ {s : σ}, I s → (∀ x ∈ m.history s ls, C x) →
      ∀ x ∈ m.history s ls, I x.pre ∧ I x.post := by
  induction ls with
  | nil => intro s _ _ x hx; simp [history] at hx
  | cons l ls ih =>
      intro s hs hC x hx
      cases hm : m s l with
      | none => simp [history_cons_of_none hm] at hx
      | some next =>
          obtain ⟨t, out⟩ := next
          rw [history_cons_of_some hm] at hC hx
          have hpost : I t := hstep ⟨s, l, t, out⟩ hm hs (hC _ List.mem_cons_self)
          rcases List.mem_cons.1 hx with rfl | hx
          · exact ⟨hs, hpost⟩
          · exact ih hpost (fun y hy => hC y (List.mem_cons_of_mem _ hy)) x hx

/-- The invariant rule for the states a run visits. -/
theorem visits_inv (hstep : ∀ x, m.Takes x → I x.pre → C x → I x.post) {ls : List ℓ} {s t : σ}
    (hs : I s) (hC : ∀ x ∈ m.history s ls, C x) (ht : m.Visits s ls t) : I t := by
  rcases ht with rfl | ⟨x, hx, rfl⟩
  · exact hs
  · exact (history_inv hstep hs hC x hx).2

/-- **Exactness rule.** If every step that meets `C` keeps the invariant and satisfies `P`, and
every step that satisfies `P` meets `C`, then all steps of a run satisfy `P` exactly when all of
them meet `C`. -/
theorem forall_history_iff (hgood : ∀ x, m.Takes x → I x.pre → C x → I x.post ∧ P x)
    (hbad : ∀ x, m.Takes x → I x.pre → P x → C x) {ls : List ℓ} {s : σ} (hs : I s) :
    (∀ x ∈ m.history s ls, P x) ↔ ∀ x ∈ m.history s ls, C x := by
  induction ls generalizing s with
  | nil => simp [history]
  | cons l ls ih =>
      cases hm : m s l with
      | none => simp [history_cons_of_none hm]
      | some next =>
          obtain ⟨t, out⟩ := next
          rw [history_cons_of_some hm]
          simp only [List.forall_mem_cons]
          constructor
          · rintro ⟨hp, hrest⟩
            have hc := hbad ⟨s, l, t, out⟩ hm hs hp
            exact ⟨hc, (ih (hgood ⟨s, l, t, out⟩ hm hs hc).1).1 hrest⟩
          · rintro ⟨hc, hrest⟩
            obtain ⟨hpost, hp⟩ := hgood ⟨s, l, t, out⟩ hm hs hc
            exact ⟨hp, (ih hpost).2 hrest⟩

/-! ## Histories as a past -/

/-- The state that the steps taken from `s` end in. -/
def stateAfter (s : σ) (past : List (Step σ ℓ ω)) : σ := (past.getLast?.map Step.post).getD s

@[simp] theorem stateAfter_nil (s : σ) : stateAfter s ([] : List (Step σ ℓ ω)) = s := rfl

@[simp] theorem stateAfter_concat (s : σ) (past : List (Step σ ℓ ω)) (x : Step σ ℓ ω) :
    stateAfter s (past ++ [x]) = x.post := by
  simp [stateAfter]

theorem stateAfter_cons (s : σ) (x : Step σ ℓ ω) (past : List (Step σ ℓ ω)) :
    stateAfter s (x :: past) = stateAfter x.post past := by
  cases past using List.reverseRecOn with
  | nil => rfl
  | append_singleton past y => rw [← List.cons_append, stateAfter_concat, stateAfter_concat]

/-- One more label adds at most one step, from the state the run had reached. -/
theorem history_concat (ls : List ℓ) (l : ℓ) :
    ∀ s : σ, m.history s (ls ++ [l]) = m.history s ls ∨
      ∃ x, m.Takes x ∧ x.pre = stateAfter s (m.history s ls) ∧
        m.history s (ls ++ [l]) = m.history s ls ++ [x] := by
  induction ls with
  | nil =>
      intro s
      cases hm : m s l with
      | none => exact Or.inl (history_cons_of_none hm [])
      | some next =>
          obtain ⟨t, out⟩ := next
          exact Or.inr ⟨⟨s, l, t, out⟩, hm, rfl, history_cons_of_some hm []⟩
  | cons k ls ih =>
      intro s
      rw [List.cons_append]
      cases hm : m s k with
      | none => exact Or.inl (by rw [history_cons_of_none hm, history_cons_of_none hm])
      | some next =>
          obtain ⟨t, out⟩ := next
          rw [history_cons_of_some hm, history_cons_of_some hm, stateAfter_cons]
          rcases ih t with h | ⟨x, hx, hpre, h⟩
          · exact Or.inl (by rw [h])
          · exact Or.inr ⟨x, hx, hpre, by rw [h, List.cons_append]⟩

/-- A step of a history is taken from the state that the steps before it end in, and these are the
history of the labels before its own. -/
theorem history_split {past rest : List (Step σ ℓ ω)} {x : Step σ ℓ ω} {ls : List ℓ} :
    ∀ {s : σ}, m.history s ls = past ++ x :: rest →
      m.Takes x ∧ x.pre = stateAfter s past ∧ ∃ p, p <+: ls ∧ m.history s p = past := by
  induction ls generalizing past with
  | nil => intro s h; simp [history] at h
  | cons l ls ih =>
      intro s h
      cases hm : m s l with
      | none => simp [history_cons_of_none hm] at h
      | some next =>
          obtain ⟨t, out⟩ := next
          rw [history_cons_of_some hm] at h
          cases past with
          | nil =>
              obtain ⟨rfl, -⟩ := List.cons.inj h
              exact ⟨hm, rfl, [], List.nil_prefix, rfl⟩
          | cons y past =>
              obtain ⟨rfl, htail⟩ := List.cons.inj h
              obtain ⟨hx, hpre, p, hp, hpast⟩ := ih htail
              refine ⟨hx, ?_, l :: p, List.cons_prefix_cons.2 ⟨rfl, hp⟩, ?_⟩
              · rw [hpre, stateAfter_cons]
              · rw [history_cons_of_some hm, hpast]

variable {J : List (Step σ ℓ ω) → Prop}

/-- **Invariant rule for pasts.** A predicate that holds before the first step and that every step
meeting `C` extends holds of the history of a run whose steps all meet `C`. -/
theorem past_inv {s : σ} (hnil : J [])
    (hstep : ∀ past x, m.Takes x → x.pre = stateAfter s past → J past → C x → J (past ++ [x]))
    {ls : List ℓ} (hC : ∀ x ∈ m.history s ls, C x) : J (m.history s ls) := by
  induction ls using List.reverseRecOn with
  | nil => exact hnil
  | append_singleton ls l ih =>
      have hpast : J (m.history s ls) :=
        ih fun x hx => hC x (mem_history_mono ⟨[l], rfl⟩ hx)
      rcases history_concat (m := m) ls l s with h | ⟨x, hx, hpre, h⟩
      · rwa [h]
      · rw [h] at hC ⊢
        exact hstep _ x hx hpre hpast (hC x (by simp))

/-- **Exactness rule for pasts.** If moreover a step that does not meet `C` ends the predicate, then
it holds throughout a run exactly when every step of the run meets `C`. -/
theorem forall_prefix_iff {s : σ} (hnil : J [])
    (hstep : ∀ past x, m.Takes x → x.pre = stateAfter s past → J past →
      (J (past ++ [x]) ↔ C x)) (ls : List ℓ) :
    (∀ p, p <+: ls → J (m.history s p)) ↔ ∀ x ∈ m.history s ls, C x := by
  constructor
  · intro hall
    induction ls using List.reverseRecOn with
    | nil => intro x hx; simp [history] at hx
    | append_singleton ls l ih =>
        have hC := ih fun p hp => hall p (hp.trans ⟨[l], rfl⟩)
        intro y hy
        rcases history_concat (m := m) ls l s with h | ⟨x, hx, hpre, h⟩
        · exact hC y (h ▸ hy)
        · rw [h, List.mem_append, List.mem_singleton] at hy
          rcases hy with hy | rfl
          · exact hC y hy
          · have hlast := hall _ (List.prefix_refl _)
            rw [h] at hlast
            exact (hstep _ y hx hpre (hall ls ⟨[l], rfl⟩)).1 hlast
  · intro hC p hp
    refine past_inv hnil (fun past x hx hpre hpast hc => (hstep past x hx hpre hpast).2 hc) ?_
    intro x hx
    exact hC x (mem_history_mono hp hx)

end Machine

/-- **Exactness rule for labels.** A predicate that holds before the first label, and that a label
keeps exactly when it meets `C`, holds throughout a run exactly when every label meets `C`. -/
theorem forall_prefixes_iff {J : List ℓ → Prop} {C : List ℓ → ℓ → Prop} (hnil : J [])
    (hstep : ∀ p l, J p → (J (p ++ [l]) ↔ C p l)) (ls : List ℓ) :
    (∀ p, p <+: ls → J p) ↔ ∀ p l, p ++ [l] <+: ls → C p l := by
  constructor
  · intro hall p l hp
    exact (hstep p l (hall p ((List.prefix_append p [l]).trans hp))).1 (hall _ hp)
  · intro hC p
    induction p using List.reverseRecOn with
    | nil => exact fun _ => hnil
    | append_singleton p l ih =>
        intro hp
        exact (hstep p l (ih ((List.prefix_append p [l]).trans hp))).2 (hC p l hp)

/-! ## What the last labels say -/

/-- A label switched on, and none after it switched off. -/
def Since (on off : ℓ → Prop) (ls : List ℓ) : Prop :=
  ∃ before l after, ls = before ++ l :: after ∧ on l ∧ ∀ x ∈ after, ¬ off x

section Since

variable {on off : ℓ → Prop} {ls rest : List ℓ} {l : ℓ}

theorem Since.exists_mem (h : Since on off ls) : ∃ l ∈ ls, on l := by
  obtain ⟨before, l, after, rfl, hl, -⟩ := h
  exact ⟨l, by simp, hl⟩

theorem not_since_nil : ¬ Since on off [] := by
  intro h
  obtain ⟨l, hl, -⟩ := h.exists_mem
  cases hl

theorem since_singleton : Since on off [l] ↔ on l := by
  constructor
  · intro h
    obtain ⟨l', hl', hon⟩ := h.exists_mem
    exact List.mem_singleton.1 hl' ▸ hon
  · intro h
    exact ⟨[], l, [], rfl, h, by simp⟩

theorem since_append :
    Since on off (ls ++ rest) ↔ Since on off rest ∨ ((∀ x ∈ rest, ¬ off x) ∧ Since on off ls) := by
  constructor
  · rintro ⟨before, l, after, heq, hl, hafter⟩
    rcases List.append_eq_append_iff.1 heq with ⟨t, -, hrest⟩ | ⟨t, hls, hrest⟩
    · exact Or.inl ⟨t, l, after, hrest, hl, hafter⟩
    · cases t with
      | nil => exact Or.inl ⟨[], l, after, hrest.symm, hl, hafter⟩
      | cons k t =>
          rw [List.cons_append] at hrest
          obtain ⟨rfl, rfl⟩ := List.cons.inj hrest
          rw [List.forall_mem_append] at hafter
          exact Or.inr ⟨hafter.2, before, l, t, hls, hl, hafter.1⟩
  · rintro (⟨before, l, after, rfl, hl, hafter⟩ | ⟨hrest, before, l, after, rfl, hl, hafter⟩)
    · exact ⟨ls ++ before, l, after, by simp, hl, hafter⟩
    · exact ⟨before, l, after ++ rest, by simp, hl, List.forall_mem_append.2 ⟨hafter, hrest⟩⟩

end Since

end PortVpn.Lib
