import Mathlib.Data.List.Infix
import Mathlib.Data.List.ReduceOption

/-!
# A queue that is polled

Values arrive in a queue, and some turns poll its front, whether there is something in it or not.
What is polled and what is left are what has arrived, in its order (`serve_conserves`); the polls
get one value each, the first the first, exactly if none of them comes too early (`serve_eq_iff`).
-/

set_option autoImplicit false

namespace PortVpn.Lib

universe u

variable {α : Type u}

/-- What happens to the queue in a turn. -/
inductive Turn (α : Type u) where
  | arrive (xs : List α)
  | poll
  deriving DecidableEq, Repr

namespace Turn

def given : Turn α → List α
  | arrive xs => xs
  | poll => []

def isPoll : Turn α → Bool
  | arrive _ => false
  | poll => true

end Turn

/-- What the polls of the turns get, and what is left. -/
def serve : List α → List (Turn α) → List (Option α) × List α
  | q, [] => ([], q)
  | q, .arrive xs :: ts => serve (q ++ xs) ts
  | q, .poll :: ts => (q.head? :: (serve q.tail ts).1, (serve q.tail ts).2)

/-- No poll comes before the value for it, with so many values in the queue. -/
def Timely : Nat → List (Turn α) → Prop
  | _, [] => True
  | n, .arrive xs :: ts => Timely (n + xs.length) ts
  | n, .poll :: ts => 1 ≤ n ∧ Timely (n - 1) ts

section

variable {q : List α} {ts us : List (Turn α)}

/-- **Nothing is lost, doubled or reordered.** -/
theorem serve_conserves (q : List α) (ts : List (Turn α)) :
    q ++ ts.flatMap Turn.given = (serve q ts).1.reduceOption ++ (serve q ts).2 := by
  induction ts generalizing q with
  | nil => simp [serve]
  | cons t ts ih =>
      rw [List.flatMap_cons, ← List.append_assoc]
      cases t with
      | arrive xs => exact ih (q ++ xs)
      | poll =>
          cases q with
          | nil => exact ih []
          | cons x q =>
              rw [serve, List.head?_cons, List.reduceOption_cons_of_some, List.cons_append]
              exact congrArg (x :: ·) ((congrArg (· ++ _) (List.append_nil q)).trans (ih q))

theorem length_serve (q : List α) (ts : List (Turn α)) :
    (serve q ts).1.length = ts.countP Turn.isPoll := by
  induction ts generalizing q with
  | nil => rfl
  | cons t ts ih =>
      cases t with
      | arrive xs => exact (ih (q ++ xs)).trans (List.countP_cons_of_neg Bool.false_ne_true).symm
      | poll => exact (congrArg (· + 1) (ih q.tail)).trans (List.countP_cons_of_pos rfl).symm

theorem serve_append (q : List α) (ts us : List (Turn α)) :
    serve q (ts ++ us) =
      ((serve q ts).1 ++ (serve (serve q ts).2 us).1, (serve (serve q ts).2 us).2) := by
  induction ts generalizing q with
  | nil => rfl
  | cons t ts ih =>
      cases t with
      | arrive xs => exact ih (q ++ xs)
      | poll =>
          rw [List.cons_append, serve, ih]
          rfl

/-- A poll gets something exactly if it comes in time. -/
theorem timely_iff_isSome : Timely q.length ts ↔ ∀ x ∈ (serve q ts).1, x.isSome := by
  induction ts generalizing q with
  | nil => exact iff_of_true trivial fun _ hx => nomatch hx
  | cons t ts ih =>
      cases t with
      | arrive xs =>
          rw [Timely, ← List.length_append]
          exact ih
      | poll =>
          rw [Timely, ← List.length_tail, ih, serve, List.forall_mem_cons]
          refine and_congr_left fun _ => ?_
          cases q with
          | nil => exact iff_of_false (Nat.not_succ_le_zero 0) Bool.false_ne_true
          | cons x q => exact iff_of_true (Nat.le_add_left 1 _) rfl

theorem map_some_reduceOption {xs : List (Option α)} (h : ∀ x ∈ xs, x.isSome) :
    xs = xs.reduceOption.map some := by
  induction xs with
  | nil => rfl
  | cons x xs ih =>
      obtain ⟨hx, hxs⟩ := List.forall_mem_cons.1 h
      obtain ⟨a, rfl⟩ := Option.isSome_iff_exists.1 hx
      rw [List.reduceOption_cons_of_some, List.map_cons, ← ih hxs]

/-- **When every poll gets its own value**: exactly if none comes too early. -/
theorem serve_eq_iff :
    (serve q ts).1 = ((q ++ ts.flatMap Turn.given).take (ts.countP Turn.isPoll)).map some ↔
      Timely q.length ts := by
  rw [timely_iff_isSome]
  constructor
  · intro h x hx
    rw [h] at hx
    obtain ⟨a, -, rfl⟩ := List.mem_map.1 hx
    rfl
  · intro h
    have hsome := map_some_reduceOption h
    have hlen : (serve q ts).1.reduceOption.length = ts.countP Turn.isPoll := by
      rw [← length_serve q ts]
      exact (List.length_map _).symm.trans (congrArg List.length hsome.symm)
    rw [serve_conserves q ts, ← hlen, List.take_left']
    · exact hsome
    · rfl

/-- The turns are timely if, at each point, no more polls than values have come. -/
theorem timely_iff_past {n : Nat} :
    Timely n ts ↔ ∀ us, us <+: ts → us.countP Turn.isPoll ≤ n + (us.flatMap Turn.given).length := by
  induction ts generalizing n with
  | nil =>
      refine iff_of_true trivial fun us hus => ?_
      rw [List.prefix_nil.1 hus]
      exact Nat.zero_le _
  | cons t ts ih =>
      have hcons : (∀ us, us <+: t :: ts →
            us.countP Turn.isPoll ≤ n + (us.flatMap Turn.given).length) ↔
          ∀ us, us <+: ts → (t :: us).countP Turn.isPoll ≤
            n + ((t :: us).flatMap Turn.given).length := by
        constructor
        · exact fun h us hus => h (t :: us) (List.cons_prefix_cons.2 ⟨rfl, hus⟩)
        · intro h us hus
          rcases List.prefix_cons_iff.1 hus with rfl | ⟨vs, rfl, hvs⟩
          · exact Nat.zero_le _
          · exact h vs hvs
      rw [hcons]
      cases t with
      | arrive xs =>
          rw [Timely, ih]
          refine forall₂_congr fun us _ => ?_
          rw [List.countP_cons_of_neg Bool.false_ne_true, List.flatMap_cons, List.length_append,
            Nat.add_assoc]
          rfl
      | poll =>
          rw [Timely, ih]
          constructor
          · rintro ⟨hpos, h⟩ us hus
            rw [List.countP_cons_of_pos rfl, List.flatMap_cons, List.length_append]
            have := h us hus
            simp only [Turn.given, List.length_nil]
            omega
          · intro h
            refine ⟨h [] (List.nil_prefix), fun us hus => ?_⟩
            have := h us hus
            rw [List.countP_cons_of_pos rfl, List.flatMap_cons, List.length_append] at this
            simp only [Turn.given, List.length_nil] at this
            omega

/-- Whatever comes in pieces of one at most is cut where the pieces are. -/
theorem forall_prefix_flatMap_iff {β γ : Type*} {f : β → List γ} (hf : ∀ x, (f x).length ≤ 1)
    {P : List γ → Prop} {xs : List β} :
    (∀ us, us <+: xs.flatMap f → P us) ↔ ∀ ys, ys <+: xs → P (ys.flatMap f) := by
  constructor
  · exact fun h ys hys => h _ (hys.flatMap f)
  · intro h
    induction xs generalizing P with
    | nil =>
        intro us hus
        rw [List.prefix_nil.1 hus]
        exact h [] List.nil_prefix
    | cons x xs ih =>
        intro us hus
        rw [List.flatMap_cons] at hus
        have hshort := hf x
        rcases hpiece : f x with _ | ⟨c, _ | _⟩
        · rw [hpiece] at hus
          refine ih (P := P) (fun ys hys => ?_) us hus
          have := h (x :: ys) (List.cons_prefix_cons.2 ⟨rfl, hys⟩)
          rwa [List.flatMap_cons, hpiece] at this
        · rw [hpiece] at hus
          rcases List.prefix_cons_iff.1 hus with rfl | ⟨vs, rfl, hvs⟩
          · exact h [] List.nil_prefix
          · refine ih (P := fun vs => P (c :: vs)) (fun ys hys => ?_) vs hvs
            have := h (x :: ys) (List.cons_prefix_cons.2 ⟨rfl, hys⟩)
            rwa [List.flatMap_cons, hpiece] at this
        · rw [hpiece] at hshort
          exact absurd hshort (by simp)

theorem timely_append {n : Nat} : Timely n (ts ++ us) ↔ Timely n ts ∧
    Timely (n + (ts.flatMap Turn.given).length - ts.countP Turn.isPoll) us := by
  induction ts generalizing n with
  | nil => exact (iff_of_eq (true_and _)).symm
  | cons t ts ih =>
      cases t with
      | arrive xs =>
          rw [List.cons_append, Timely, Timely, ih, List.countP_cons_of_neg Bool.false_ne_true,
            List.flatMap_cons, List.length_append, Nat.add_assoc]
          rfl
      | poll =>
          rw [List.cons_append, Timely, Timely, ih, List.countP_cons_of_pos rfl, List.flatMap_cons,
            List.length_append, and_assoc]
          refine and_congr_right fun hpos => and_congr_right fun _ => ?_
          have : n - 1 + (ts.flatMap Turn.given).length - ts.countP Turn.isPoll =
              n + ((Turn.given (.poll : Turn α)).length + (ts.flatMap Turn.given).length) -
                (ts.countP Turn.isPoll + 1) := by
            simp only [Turn.given, List.length_nil]
            omega
          rw [this]

end

end PortVpn.Lib
