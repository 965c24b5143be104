import Mathlib.Data.Nat.Find
import Mathlib.Order.Basic

/-!
# Queues that are fed while they are emptied

A system takes one step after the other, as long as there is something to do, and each step takes
one thing from its queue and may put others there. Where the size of the queue after `n` steps is
known from the demand of these steps, the queue becomes empty exactly if at some point no more was
asked for than was done.
-/

set_option autoImplicit false

namespace PortVpn.Lib.Draining

universe u

variable {σ : Type u}

/-- The state after some steps, each of them with its number; `none` behind a step that cannot be
taken. -/
def after (step : Nat → σ → Option σ) (s : σ) : Nat → Option σ
  | 0 => some s
  | n + 1 => (after step s n).bind (step n)

variable {step : Nat → σ → Option σ} {s : σ}

/-- A property of the state and of the number of steps that the first state has and that every step
keeps. -/
theorem after_inv {I : Nat → σ → Prop} (hstart : I 0 s)
    (hstep : ∀ n t u, I n t → step n t = some u → I (n + 1) u) :
    ∀ n t, after step s n = some t → I n t := by
  intro n
  induction n with
  | zero =>
      intro t h
      obtain rfl := Option.some.inj h
      exact hstart
  | succ n ih =>
      intro u h
      obtain ⟨t, ht, hu⟩ := Option.bind_eq_some_iff.1 h
      exact hstep n t u (ih t ht) hu

variable {size : σ → Nat} {demand : Nat → Nat}

/-- **The queue becomes empty** exactly if the demand is met at some point. -/
theorem exists_empty_iff
    (hsize : ∀ n t, after step s n = some t → size t + n = demand n)
    (hgoes : ∀ n t, after step s n = some t → size t ≠ 0 → ∃ u, step n t = some u) :
    (∃ n t, after step s n = some t ∧ size t = 0) ↔ ∃ n, demand n ≤ n := by
  constructor
  · rintro ⟨n, t, ht, hempty⟩
    exact ⟨n, by rw [← hsize n t ht, hempty, Nat.zero_add]⟩
  · intro hmet
    -- up to the first such point there is something left to do
    have hreach : ∀ n, n ≤ Nat.find hmet → ∃ t, after step s n = some t := by
      intro n
      induction n with
      | zero => exact fun _ => ⟨s, rfl⟩
      | succ n ih =>
          intro hn
          obtain ⟨t, ht⟩ := ih (Nat.le_of_succ_le hn)
          have hmore := Nat.find_min hmet (Nat.lt_of_succ_le hn)
          have hleft := hsize n t ht
          obtain ⟨u, hu⟩ := hgoes n t ht (by omega)
          exact ⟨u, by rw [after, ht, Option.bind_some, hu]⟩
    obtain ⟨t, ht⟩ := hreach (Nat.find hmet) le_rfl
    have hleft := hsize _ t ht
    have hfound := Nat.find_spec hmet
    exact ⟨_, t, ht, by omega⟩

end PortVpn.Lib.Draining
