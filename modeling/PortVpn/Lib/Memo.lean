import Mathlib.Data.List.Induction

/-!
# Caching the results of a function

A function that may fail is called one time after another, and its results are kept under a key of
the argument. The cache is transparent for a list of calls exactly if every call would have had the
result of the call that filled the cache for its key.
-/

set_option autoImplicit false

namespace PortVpn.Lib

universe u v w x

variable {α : Type u} {κ : Type v} {β : Type w} {ε : Type x} [DecidableEq κ]

/-- A call: the result that is kept under the key, or the function's own, which is then kept. -/
def memo (key : α → κ) (f : α → Except ε β) (cache : List (κ × β)) (a : α) :
    Except ε β × List (κ × β) :=
  match cache.lookup (key a) with
  | some b => (.ok b, cache)
  | none =>
      match f a with
      | .ok b => (.ok b, (key a, b) :: cache)
      | .error e => (.error e, cache)

/-- The cache after a list of calls. -/
def cacheAfter (key : α → κ) (f : α → Except ε β) (calls : List α) : List (κ × β) :=
  calls.foldl (fun cache a => (memo key f cache a).2) []

/-- The call that filled the cache for a key: the first one with the key that did not fail. -/
def filledBy (key : α → κ) (f : α → Except ε β) (calls : List α) (k : κ) : Option α :=
  calls.find? fun a => decide (key a = k) && (f a).toOption.isSome

variable {key : α → κ} {f : α → Except ε β} {calls : List α} {k : κ} {a : α} {b : β}

theorem cacheAfter_concat (calls : List α) (a : α) :
    cacheAfter key f (calls ++ [a]) = (memo key f (cacheAfter key f calls) a).2 := by
  rw [cacheAfter, List.foldl_append]
  rfl

theorem memo_of_lookup {cache : List (κ × β)} (h : cache.lookup (key a) = some b) :
    memo key f cache a = (.ok b, cache) := by
  rw [memo, h]

theorem memo_of_not_cached {cache : List (κ × β)} (h : cache.lookup (key a) = none) :
    (memo key f cache a).1 = f a := by
  rw [memo, h]
  cases f a with
  | ok b => rfl
  | error e => rfl

/-- What a call adds to the cache. -/
theorem lookup_memo (cache : List (κ × β)) (a : α) (k : κ) :
    (memo key f cache a).2.lookup k =
      (cache.lookup k).or (if key a = k then (f a).toOption else none) := by
  cases hcached : cache.lookup (key a) with
  | some b =>
      rw [memo_of_lookup hcached]
      by_cases hk : key a = k
      · rw [← hk, hcached]
        rfl
      · rw [if_neg hk, Option.or_none]
  | none =>
      rw [memo, hcached]
      cases hf : f a with
      | error e =>
          have hnone : (Except.error e : Except ε β).toOption = none := rfl
          rw [hnone, ite_self, Option.or_none]
      | ok b =>
          have hsome : (Except.ok b : Except ε β).toOption = some b := rfl
          dsimp only
          by_cases hk : key a = k
          · rw [← hk, List.lookup_cons_self, hcached, if_pos rfl, hsome]
            rfl
          · rw [List.lookup_cons, if_neg hk, Option.or_none, beq_false_of_ne (Ne.symm hk)]

theorem filledBy_concat (calls : List α) (a : α) (k : κ) :
    filledBy key f (calls ++ [a]) k =
      (filledBy key f calls k).or
        (if key a = k ∧ (f a).toOption.isSome then some a else none) := by
  rw [filledBy, List.find?_append, filledBy]
  congr 1
  by_cases h : key a = k ∧ (f a).toOption.isSome
  · simp [h]
  · rw [if_neg h, List.find?_singleton, if_neg (by simpa using h)]

/-- The call that filled the cache did not fail. -/
theorem of_filledBy {w : α} (h : filledBy key f calls k = some w) :
    key w = k ∧ ∃ b, f w = .ok b := by
  have hw := List.find?_some h
  simp only [Bool.and_eq_true, decide_eq_true_eq] at hw
  refine ⟨hw.1, ?_⟩
  cases hf : f w with
  | ok b => exact ⟨b, rfl⟩
  | error e =>
      rw [hf] at hw
      exact absurd hw.2 (by simp [Except.toOption])

/-- **What the cache holds**: the results of the calls that filled it. -/
theorem lookup_cacheAfter (calls : List α) (k : κ) :
    (cacheAfter key f calls).lookup k =
      (filledBy key f calls k).bind fun a => (f a).toOption := by
  induction calls using List.reverseRecOn with
  | nil => rfl
  | append_singleton calls a ih =>
      rw [cacheAfter_concat, lookup_memo, ih, filledBy_concat]
      cases hfilled : filledBy key f calls k with
      | some w =>
          obtain ⟨-, b, hb⟩ := of_filledBy hfilled
          simp [hb, Except.toOption]
      | none =>
          by_cases hk : key a = k
          · cases hf : f a with
            | ok b => simp [hk, hf, Except.toOption]
            | error e => simp [hk, Except.toOption]
          · simp [hk]

/-- A call with a key that is kept. -/
theorem memo_of_filledBy {w : α} (h : filledBy key f calls (key a) = some w) (hb : f w = .ok b) :
    (memo key f (cacheAfter key f calls) a).1 = .ok b := by
  have hcached : (cacheAfter key f calls).lookup (key a) = some b := by
    rw [lookup_cacheAfter, h, Option.bind_some, hb]
    rfl
  rw [memo_of_lookup hcached]

/-- **When a cache is transparent.** Every result of a list of calls is that of the function if and
only if every call has the function's result in common with the call that filled the cache for its
key. -/
theorem memo_transparent_iff (calls : List α) :
    (∀ before a after, calls = before ++ a :: after →
      ∀ b, (memo key f (cacheAfter key f before) a).1 = .ok b → f a = .ok b) ↔
    ∀ before a after, calls = before ++ a :: after →
      ∀ w, filledBy key f before (key a) = some w → f a = f w := by
  constructor
  · intro h before a after hcalls w hw
    obtain ⟨-, b, hb⟩ := of_filledBy hw
    rw [hb]
    exact h before a after hcalls b (memo_of_filledBy hw hb)
  · intro h before a after hcalls b hresult
    cases hcached : (cacheAfter key f before).lookup (key a) with
    | none =>
        rw [memo_of_not_cached hcached] at hresult
        exact hresult
    | some b' =>
        rw [memo_of_lookup hcached] at hresult
        cases hresult
        rw [lookup_cacheAfter] at hcached
        obtain ⟨w, hw, hb⟩ := Option.bind_eq_some_iff.1 hcached
        rw [h before a after hcalls w hw]
        obtain ⟨-, b, hfw⟩ := of_filledBy hw
        rw [hfw] at hb ⊢
        cases hb
        rfl

end PortVpn.Lib
