import Mathlib.Data.List.Perm.Basic

/-!
# Two runs of one computation

A computation with a state may fail. Run from two states that a relation `R` keeps together, it
either fails alike or returns results that are related, with states that are still together. The
rules follow the ways in which such computations are composed, so that a relation has to be checked
for the basic operations on the state only.
-/

set_option autoImplicit false

namespace PortVpn.Lib

universe u v

variable {σ ε : Type u} {α β : Type u}

/-- The ends of two runs are together: the same error, or related results and states. -/
inductive EndTogether (R : σ → σ → Prop) (Q : α → α → Prop) :
    Except ε (α × σ) → Except ε (α × σ) → Prop
  | error (e : ε) : EndTogether R Q (.error e) (.error e)
  | ok {a b : α} {s t : σ} (hresult : Q a b) (hstate : R s t) :
      EndTogether R Q (.ok (a, s)) (.ok (b, t))

/-- Two computations keep states together. -/
def Together (R : σ → σ → Prop) (Q : α → α → Prop) (x y : StateT σ (Except ε) α) : Prop :=
  ∀ s t, R s t → EndTogether R Q (x s) (y t)

namespace Together

variable {R : σ → σ → Prop} {Q : α → α → Prop} {P : β → β → Prop}

theorem pure {a b : α} (h : Q a b) :
    Together R Q (Pure.pure a : StateT σ (Except ε) α) (Pure.pure b) :=
  fun _ _ hst => .ok h hst

theorem bind {x y : StateT σ (Except ε) α} {f g : α → StateT σ (Except ε) β}
    (hx : Together R Q x y) (hf : ∀ a b, Q a b → Together R P (f a) (g b)) :
    Together R P (x >>= f) (y >>= g) := by
  intro s t hst
  show EndTogether R P (x s >>= fun r => f r.1 r.2) (y t >>= fun r => g r.1 r.2)
  have hends := hx s t hst
  generalize x s = xs, y t = yt at hends ⊢
  cases hends with
  | error e => exact .error e
  | ok hresult hstate => exact hf _ _ hresult _ _ hstate

/-- The bind of a result that is the same in both runs. -/
theorem bind_eq {x y : StateT σ (Except ε) α} {f g : α → StateT σ (Except ε) β}
    (hx : Together R Eq x y) (hf : ∀ a, Together R P (f a) (g a)) :
    Together R P (x >>= f) (y >>= g) :=
  hx.bind fun a _ hab => hab ▸ hf a

/-- What does not use the state. -/
theorem lift (x : Except ε α) : Together R Eq (x : StateT σ (Except ε) α) x := by
  intro s t hst
  cases x with
  | error e => exact .error e
  | ok a => exact .ok rfl hst

theorem get : Together R R (MonadState.get : StateT σ (Except ε) σ) MonadState.get :=
  fun _ _ hst => .ok hst hst

theorem modify {f g : σ → σ} (h : ∀ s t, R s t → R (f s) (g t)) :
    Together R Eq (modify f : StateT σ (Except ε) PUnit) (modify g) :=
  fun s t hst => .ok rfl (h s t hst)

end Together

end PortVpn.Lib
