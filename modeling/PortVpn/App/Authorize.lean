import PortVpn.App.Account

/-!
# What a response to a login changes

`authorize` sets the fields one by one while it reads the response, and what is set before a field
that cannot be read stays set. `allOrNothing_iff` says when it is all or nothing.

What a statement does can be told from the response and the account before the call (`outcome`);
only `Log.e` of the first price looks at what was set before it. `saveData` succeeds when no number
that it unboxes is null (`saveData_of_puts`, `saveData_of_not_puts`).
-/

set_option autoImplicit false

namespace PortVpn.App

open PortVpn.Lib

section

variable {F D : Type}

/-! ## One statement -/

/-- Whether a value is null. -/
def IsNull : (f : Field) → Value F f → Prop
  | .text _, v => v = none
  | .float _, v => v = none
  | .int _, _ => False
  | .subscription, v => v = none

variable (P : Platform F D) (o : JsonObject D) (a : ∀ f, Value F f)

namespace Clause

/-- What a statement does, told from the account before the call. -/
def outcome : Clause → Except Failure (Option (Assignment (Value F)))
  | logPrice =>
      if o.has "sku_3_price".toList && !o.has "sku_1_price".toList &&
          (show Option F from a (.float (.sku_price .one))).isNone then
        .error .nullPointerException
      else .ok none
  | c => c.eval P o a

/-- The field that a statement may set. -/
def target : Clause → Option Field
  | setIf _ _ f => some f
  | setOr _ f _ => some (.text f)
  | subscribed => some .subscription
  | must _ f => some (.text f)
  | logObject => none
  | logPrice => none

variable {P o a}

theorem outcome_eq_eval {c : Clause} (h : c ≠ logPrice) (a' : ∀ f, Value F f) :
    c.eval P o a' = c.outcome P o a := by
  cases c with
  | logPrice => exact absurd rfl h
  | setIf test key f => rfl
  | setOr key f default => rfl
  | subscribed => rfl
  | must key f => rfl
  | logObject => rfl

end Clause

variable {P o a}

/-- What is read from a response is not null. -/
theorem not_isNull_of_read {f : Field} {j : Json D} {v : Value F f} (h : f.read P j = some v) :
    ¬ IsNull f v := by
  cases f with
  | text f =>
      obtain ⟨t, -, rfl⟩ := Option.map_eq_some_iff.1 h
      exact Option.some_ne_none _
  | float f =>
      obtain ⟨d, -, rfl⟩ := Option.map_eq_some_iff.1 h
      exact Option.some_ne_none _
  | int f => exact id
  | subscription =>
      obtain ⟨t, -, rfl⟩ := Option.map_eq_some_iff.1 h
      exact Option.some_ne_none _

theorem not_isNull_of_get {key : Text} {f : Field} {v : Value F f} (h : o.get P key f = .ok v) :
    ¬ IsNull f v := by
  rw [JsonObject.get] at h
  split at h
  · cases h
  · rename_i j _
    split at h
    · cases h
    · rename_i hread
      cases h
      exact not_isNull_of_read hread

/-- A statement that assigns sets its own field, and not to null. -/
theorem Clause.outcome_spec {c : Clause} {x : Assignment (Value F)}
    (h : c.outcome P o a = .ok (some x)) : c.target = some x.1 ∧ ¬ IsNull x.1 x.2 := by
  have hget : ∀ {key : Text} {f : Field},
      (o.get P key f).map (fun v => some (⟨f, v⟩ : Assignment (Value F))) = .ok (some x) →
        x.1 = f ∧ ¬ IsNull x.1 x.2 := by
    intro key f hmap
    cases hread : o.get P key f with
    | error e =>
        rw [hread] at hmap
        cases hmap
    | ok v =>
        rw [hread] at hmap
        cases hmap
        exact ⟨rfl, not_isNull_of_get hread⟩
  cases c with
  -- the two statements that log assign nothing
  | logPrice =>
      rw [outcome] at h
      split at h <;> cases h
  | logObject =>
      change logObject.eval P o a = .ok (some x) at h
      rw [eval] at h
      split at h <;> cases h
  | must key f =>
      obtain ⟨hx, hnull⟩ := hget h
      exact ⟨by rw [hx]; rfl, hnull⟩
  | setIf test key f =>
      change (setIf test key f).eval P o a = .ok (some x) at h
      rw [eval] at h
      split at h
      · obtain ⟨hx, hnull⟩ := hget h
        exact ⟨by rw [hx]; rfl, hnull⟩
      · cases h
  | setOr key f default =>
      change (setOr key f default).eval P o a = .ok (some x) at h
      rw [eval] at h
      split at h
      · obtain ⟨hx, hnull⟩ := hget h
        exact ⟨by rw [hx]; rfl, hnull⟩
      · cases h
        exact ⟨rfl, Option.some_ne_none _⟩
  | subscribed =>
      change subscribed.eval P o a = .ok (some x) at h
      rw [eval] at h
      split at h
      · obtain ⟨hx, hnull⟩ := hget h
        exact ⟨by rw [hx]; rfl, hnull⟩
      · cases h
        exact ⟨rfl, Option.some_ne_none _⟩

/-! ## All statements -/

/-- Only one statement sets the first price. -/
theorem eq_set_sku_1_price {c : Clause} (hc : c ∈ authorizeClauses)
    (ht : c.target = some (.float (.sku_price .one))) :
    c = .set "sku_1_price".toList (.float (.sku_price .one)) := by
  have hall : ∀ c ∈ authorizeClauses, c.target = some (.float (.sku_price .one)) →
      c = .set "sku_1_price".toList (.float (.sku_price .one)) := by
    decide
  exact hall c hc ht

/-- It stands before the statement that logs the first price. -/
theorem set_sku_1_price_mem {before after : List Clause}
    (h : authorizeClauses = before ++ .logPrice :: after) :
    .set "sku_1_price".toList (.float (.sku_price .one)) ∈ before := by
  have hall : ∀ i < authorizeClauses.length, authorizeClauses[i]? = some .logPrice →
      .set "sku_1_price".toList (.float (.sku_price .one)) ∈ authorizeClauses.take i := by
    decide
  have hmem := hall before.length (by simp [h]) (by simp [h])
  rwa [h, List.take_left] at hmem

theorem Clause.outcome_set (P : Platform F D) (o : JsonObject D) (a : ∀ f, Value F f) (key : Text)
    (f : Field) :
    (Clause.set key f).outcome P o a =
      if o.has key then (o.get P key f).map fun v => some ⟨f, v⟩ else .ok none := rfl

/-- The first price when it is logged is the one that the response or else the account gives. -/
theorem isNone_sku_1_price (P : Platform F D) (o : JsonObject D) (a : ∀ f, Value F f)
    {before after : List Clause} (h : authorizeClauses = before ++ .logPrice :: after)
    (hbefore : Succeed (Clause.outcome P o a) before) :
    (show Option F from assign a (given (Clause.outcome P o a) before)
      (.float (.sku_price .one))).isNone =
      (!o.has "sku_1_price".toList && (show Option F from a (.float (.sku_price .one))).isNone) := by
  have hset := set_sku_1_price_mem h
  -- only the statement for the first price sets it, and not to null
  have honly : ∀ x ∈ given (Clause.outcome P o a) before, x.1 = .float (.sku_price .one) →
      o.has "sku_1_price".toList ∧ ¬ IsNull x.1 x.2 := by
    intro x hx hfield
    obtain ⟨d, hd, hout⟩ := mem_given.1 hx
    obtain ⟨htarget, hnull⟩ := Clause.outcome_spec hout
    rw [hfield] at htarget
    rw [eq_set_sku_1_price (h ▸ List.mem_append_left _ hd) htarget, Clause.outcome_set] at hout
    refine ⟨?_, hnull⟩
    by_contra hhas
    rw [if_neg hhas] at hout
    cases hout
  cases hhas : o.has "sku_1_price".toList with
  | false =>
      rw [assign_of_not_mem]
      · rfl
      · intro x hx hfield
        rw [(honly x hx hfield).1] at hhas
        cases hhas
  -- the statement has been carried out, so the price is the last value that it gave
  | true =>
      obtain ⟨x, hx⟩ := hbefore _ hset
      have hx' := hx
      rw [Clause.outcome_set, if_pos hhas] at hx'
      cases hget : o.get P "sku_1_price".toList (.float (.sku_price .one)) with
      | error e =>
          rw [hget] at hx'
          cases hx'
      | ok v =>
          rw [hget] at hx'
          cases hx'
          have hmem : (⟨_, v⟩ : Assignment (Value F)) ∈ given (Clause.outcome P o a) before :=
            mem_given.2 ⟨_, hset, hx⟩
          obtain ⟨w, hw⟩ := exists_last ⟨_, hmem, rfl⟩
          obtain ⟨y, hy, hyw⟩ := hw.exists_mem
          subst hyw
          have hnull := (honly _ hy rfl).2
          rw [assign_of_last hw]
          exact Option.isNone_eq_false_iff.2 (Option.ne_none_iff_isSome.1 hnull)

/-- Whether a statement succeeds can be told from the start. -/
theorem eval_eq_outcome (P : Platform F D) (o : JsonObject D) (a : ∀ f, Value F f)
    {before after : List Clause} {c : Clause} (h : authorizeClauses = before ++ c :: after)
    (hbefore : Succeed (Clause.outcome P o a) before) :
    c.eval P o (assign a (given (Clause.outcome P o a) before)) = c.outcome P o a := by
  by_cases hc : c = .logPrice
  · subst hc
    simp only [Clause.eval, Clause.outcome]
    rw [isNone_sku_1_price P o a h hbefore, Bool.and_assoc]
  · exact Clause.outcome_eq_eval hc _

/-! ## `saveData` -/

/-- The fields whose value is unboxed before it is put. -/
def Field.unboxed : Field → Bool
  | .float _ => true
  | .subscription => true
  | _ => false

/-- To put a value fails when it is null and has to be unboxed. -/
theorem put_cases (f : Field) (v : Value F f) :
    (f.unboxed ∧ IsNull f v ∧ put f v = .error .nullPointerException) ∨
      ((f.unboxed → ¬ IsNull f v) ∧ ∃ p, put f v = .ok p) := by
  cases f with
  | text f => exact Or.inr ⟨fun h => absurd h Bool.false_ne_true, _, rfl⟩
  | int f => exact Or.inr ⟨fun _ => id, _, rfl⟩
  | float f =>
      cases v with
      | none => exact Or.inl ⟨rfl, rfl, rfl⟩
      | some x => exact Or.inr ⟨fun _ => Option.some_ne_none x, _, rfl⟩
  | subscription =>
      cases v with
      | none => exact Or.inl ⟨rfl, rfl, rfl⟩
      | some b => exact Or.inr ⟨fun _ => Option.some_ne_none b, _, rfl⟩

/-- What is put under the key of a field. -/
def savedValue (a : ∀ f, Value F f) (f : Field) : Option (PrefValue F) :=
  match put f (getter f (a f)) with
  | .error _ => none
  | .ok pref => pref

/-- Everything that the listing puts into the preferences. -/
def saved (a : ∀ f, Value F f) (l : List (Text × Field)) :
    List (Assignment fun _ : Text => Option (PrefValue F)) :=
  l.map fun entry => ⟨entry.1, savedValue a entry.2⟩

theorem saved_cons (a : ∀ f, Value F f) (entry : Text × Field) (l : List (Text × Field)) :
    saved a (entry :: l) = ⟨entry.1, savedValue a entry.2⟩ :: saved a l := rfl

/-- Nothing that the listing unboxes is null. -/
def Unboxes (a : ∀ f, Value F f) (l : List (Text × Field)) : Prop :=
  ∀ entry ∈ l, (∃ p, put entry.2 (getter entry.2 (a entry.2)) = .ok p)

theorem getter_getter (f : Field) (v : Value F f) : getter f (getter f v) = getter f v := by
  cases f with
  | text f => cases f <;> rfl
  | float f => rfl
  | int f => rfl
  | subscription => rfl

/-- A getter is the same for all values that it has kept. -/
theorem getter_update (a : ∀ f, Value F f) (f g : Field) :
    getter g (Function.update a f (getter f (a f)) g) = getter g (a g) := by
  by_cases h : g = f
  · subst h
    rw [Function.update_self, getter_getter]
  · rw [Function.update_of_ne h]

theorem saveFields_of_unboxes {l : List (Text × Field)} :
    ∀ {s : Store F D}, Unboxes s.account.field l →
      ∃ field, saveFields s l = (⟨{ s.account with field := field },
        assign s.prefs (saved s.account.field l)⟩, none) := by
  induction l with
  | nil =>
      intro s _
      exact ⟨s.account.field, rfl⟩
  | cons entry l ih =>
      intro s h
      obtain ⟨key, f⟩ := entry
      obtain ⟨pref, hput⟩ := h (key, f) List.mem_cons_self
      let a' := Function.update s.account.field f (getter f (s.account.field f))
      -- what a getter puts back into its field changes no other value that is saved
      have hsame : ∀ g, getter g (a' g) = getter g (s.account.field g) :=
        getter_update s.account.field f
      obtain ⟨field, hfield⟩ := ih (s := ⟨{ s.account with field := a' },
          Function.update s.prefs key pref⟩) (by
        intro e he
        rw [hsame]
        exact h e (List.mem_cons_of_mem _ he))
      have hsaved : saved a' l = saved s.account.field l := by
        simp only [saved, savedValue, hsame]
      have hvalue : savedValue s.account.field f = pref := by
        rw [savedValue, hput]
      refine ⟨field, ?_⟩
      rw [saveFields, hput, saved_cons, hvalue, assign_cons, ← hsaved]
      exact hfield

theorem saveFields_of_not_unboxes {l : List (Text × Field)} :
    ∀ {s : Store F D}, ¬ Unboxes s.account.field l →
      ∃ s', saveFields s l = (s', some .nullPointerException) := by
  induction l with
  | nil =>
      intro s h
      exact absurd (fun e he => by cases he) h
  | cons entry l ih =>
      intro s h
      obtain ⟨key, f⟩ := entry
      rw [saveFields]
      -- the first field that cannot be put throws, or a later one
      rcases put_cases f (getter f (s.account.field f)) with ⟨-, -, hput⟩ | ⟨-, pref, hput⟩
      · rw [hput]
        exact ⟨_, rfl⟩
      · rw [hput]
        apply ih
        intro hrest
        apply h
        intro e he
        rcases List.mem_cons.1 he with rfl | he
        · exact ⟨pref, hput⟩
        · have hput' := hrest e he
          rwa [getter_update] at hput'

/-- Every field that is unboxed is saved. -/
theorem exists_key {f : Field} (hf : f.unboxed) : ∃ key, (key, f) ∈ savedFields := by
  cases f with
  | text f => cases hf
  | int f => cases hf
  | subscription => exact ⟨"subscription".toList, by decide⟩
  | float f =>
      cases f with
      | btc => exact ⟨"btc".toList, by decide⟩
      | sku_price p =>
          cases p with
          | one => exact ⟨"sku_1_price".toList, by decide⟩
          | two => exact ⟨"sku_2_price".toList, by decide⟩
          | three => exact ⟨"sku_3_price".toList, by decide⟩
          | four => exact ⟨"sku_4_price".toList, by decide⟩
          | five => exact ⟨"sku_5_price".toList, by decide⟩

theorem getter_of_unboxed {f : Field} (hf : f.unboxed) (v : Value F f) : getter f v = v := by
  cases f with
  | text f => cases hf
  | int f => cases hf
  | subscription => rfl
  | float f => rfl

theorem unboxes_savedFields_iff (a : ∀ f, Value F f) :
    Unboxes a savedFields ↔ ∀ f : Field, f.unboxed → ¬ IsNull f (a f) := by
  constructor
  · intro h f hf
    obtain ⟨key, hkey⟩ := exists_key hf
    obtain ⟨p, hput⟩ := h (key, f) hkey
    rw [getter_of_unboxed hf] at hput
    rcases put_cases f (a f) with ⟨-, -, herror⟩ | ⟨hnot, -⟩
    · rw [herror] at hput
      cases hput
    · exact hnot hf
  · intro h entry _
    rcases put_cases entry.2 (getter entry.2 (a entry.2)) with ⟨hf, hnull, -⟩ | ⟨-, hput⟩
    · rw [getter_of_unboxed hf] at hnull
      exact absurd hnull (h entry.2 hf)
    · exact hput

/-- What the last two statements of `saveData` put. -/
def savedPosition (P : Platform F D) (lat : Option D) (lng : D) :
    List (Assignment fun _ : Text => Option (PrefValue F)) :=
  [⟨"lat".toList, some (.string (P.printDouble (lat.getD P.zero)))⟩,
    ⟨"lng".toList, some (.string (P.printDouble lng))⟩]

/-- `saveData` puts every field and the position when nothing that it unboxes is null. -/
theorem saveData_of_unboxes (P : Platform F D) {s : Store F D} {lng : D}
    (h : ∀ f : Field, f.unboxed → ¬ IsNull f (s.account.field f))
    (hlng : s.account.lng = some lng) :
    ∃ account, saveData P s = (⟨account, assign s.prefs
      (saved s.account.field savedFields ++ savedPosition P s.account.lat lng)⟩, none) := by
  obtain ⟨field, hfields⟩ := saveFields_of_unboxes ((unboxes_savedFields_iff s.account.field).2 h)
  refine ⟨⟨field, some (s.account.lat.getD P.zero), some lng⟩, ?_⟩
  rw [saveData, hfields, assign_append]
  simp only [savePosition, hlng]
  rfl

theorem saveData_of_not_unboxes (P : Platform F D) {s : Store F D}
    (h : ¬ ((∀ f : Field, f.unboxed → ¬ IsNull f (s.account.field f)) ∧ s.account.lng ≠ none)) :
    ∃ s', saveData P s = (s', some .nullPointerException) := by
  by_cases hfields : Unboxes s.account.field savedFields
  · obtain ⟨field, hsave⟩ := saveFields_of_unboxes hfields
    have hlng : s.account.lng = none := by
      by_contra hne
      exact h ⟨(unboxes_savedFields_iff _).1 hfields, hne⟩
    rw [saveData, hsave]
    simp only [savePosition, hlng]
    exact ⟨_, rfl⟩
  · obtain ⟨s', hsave⟩ := saveFields_of_not_unboxes hfields
    rw [saveData, hsave]
    exact ⟨s', rfl⟩

/-! ## All or nothing -/

/-- What all statements leave in a field is null only if it was, and none of them set it. -/
theorem isNull_assign_iff {cs : List Clause} (f : Field) :
    IsNull f (assign a (given (Clause.outcome P o a) cs) f) ↔
      IsNull f (a f) ∧ ∀ x ∈ given (Clause.outcome P o a) cs, x.1 ≠ f := by
  by_cases hset : ∃ x ∈ given (Clause.outcome P o a) cs, x.1 = f
  · obtain ⟨v, hv⟩ := exists_last hset
    obtain ⟨x, hx, rfl⟩ := hv.exists_mem
    obtain ⟨c, -, hc⟩ := mem_given.1 hx
    rw [assign_of_last hv]
    apply iff_of_false (Clause.outcome_spec hc).2
    rintro ⟨-, hnone⟩
    exact hnone _ hx rfl
  · have hnone : ∀ x ∈ given (Clause.outcome P o a) cs, x.1 ≠ f := fun x hx hf =>
      hset ⟨x, hx, hf⟩
    rw [assign_of_not_mem hnone]
    exact (and_iff_left hnone).symm

/-- A statement for a number asks for the key that it reads. -/
def Clause.asksForKey : Clause → Bool
  | setIf test key (.float _) => test == key
  | _ => true

theorem eq_set_of_target_float {c : Clause} {f : FloatField} (hc : c ∈ authorizeClauses)
    (ht : c.target = some (.float f)) : ∃ key, c = .set key (.float f) := by
  have hall : ∀ c ∈ authorizeClauses, c.asksForKey := by decide
  cases c with
  | setIf test key f' =>
      cases ht
      have hkey : test = key := eq_of_beq (hall _ hc)
      exact ⟨key, by rw [hkey]; rfl⟩
  | setOr key f' default => cases ht
  | subscribed => cases ht
  | must key f' => cases ht
  | logObject => cases ht
  | logPrice => cases ht

/-- The response or the account gives a number for the field. -/
def Supplied (o : JsonObject D) (a : ∀ f, Value F f) (f : FloatField) : Prop :=
  (∃ key, Clause.set key (.float f) ∈ authorizeClauses ∧ o.has key) ∨
    ¬ IsNull (.float f) (a (.float f))

theorem set_float_iff (h : Succeed (Clause.outcome P o a) authorizeClauses) (f : FloatField) :
    (∃ x ∈ given (Clause.outcome P o a) authorizeClauses, x.1 = .float f) ↔
      ∃ key, Clause.set key (.float f) ∈ authorizeClauses ∧ o.has key := by
  constructor
  · rintro ⟨x, hx, hf⟩
    obtain ⟨c, hc, hout⟩ := mem_given.1 hx
    obtain ⟨key, rfl⟩ := eq_set_of_target_float hc (hf ▸ (Clause.outcome_spec hout).1)
    refine ⟨key, hc, ?_⟩
    by_contra hhas
    rw [Clause.outcome_set, if_neg hhas] at hout
    cases hout
  · rintro ⟨key, hc, hhas⟩
    obtain ⟨x, hx⟩ := h _ hc
    have hx' := hx
    rw [Clause.outcome_set, if_pos hhas] at hx'
    cases hget : o.get P key (.float f) with
    | error e =>
        rw [hget] at hx'
        cases hx'
    | ok v =>
        rw [hget] at hx'
        cases hx'
        exact ⟨_, mem_given.2 ⟨_, hc, hx⟩, rfl⟩

/-- The statement about `subscribed` always sets its field. -/
theorem set_subscription (h : Succeed (Clause.outcome P o a) authorizeClauses) :
    ∃ x ∈ given (Clause.outcome P o a) authorizeClauses, x.1 = .subscription := by
  have hc : Clause.subscribed ∈ authorizeClauses := by decide
  obtain ⟨x, hx⟩ := h _ hc
  have hx' : Clause.subscribed.eval P o a = .ok x := hx
  rw [Clause.eval] at hx'
  split at hx'
  · cases hget : o.get P "subscribed".toList .subscription with
    | error e =>
        rw [hget] at hx'
        cases hx'
    | ok v =>
        rw [hget] at hx'
        cases hx'
        exact ⟨_, mem_given.2 ⟨_, hc, hx⟩, rfl⟩
  · cases hx'
    exact ⟨_, mem_given.2 ⟨_, hc, hx⟩, rfl⟩

/-- After all statements, nothing that is unboxed is null exactly when every number is supplied. -/
theorem unboxed_iff (h : Succeed (Clause.outcome P o a) authorizeClauses) :
    (∀ f : Field, f.unboxed →
        ¬ IsNull f (assign a (given (Clause.outcome P o a) authorizeClauses) f)) ↔
      ∀ f, Supplied o a f := by
  constructor
  · intro hall f
    have hf := hall (.float f) rfl
    rw [isNull_assign_iff, not_and_or] at hf
    rcases hf with hf | hf
    · exact Or.inr hf
    · push Not at hf
      exact Or.inl ((set_float_iff h f).1 hf)
  · intro hall f hf hnull
    obtain ⟨hwas, hnone⟩ := (isNull_assign_iff f).1 hnull
    cases f with
    | text f => cases hf
    | int f => cases hf
    -- the subscription is always set
    | subscription =>
        obtain ⟨x, hx, hxf⟩ := set_subscription h
        exact hnone x hx hxf
    | float f =>
        rcases hall f with hset | hnot
        · obtain ⟨x, hx, hxf⟩ := (set_float_iff h f).2 hset
          exact hnone x hx hxf
        · exact hnot hwas

/-- A call is all or nothing: it returns, and when it returns false nothing is changed. -/
def AllOrNothing (P : Platform F D) (s : Store F D) (authObj : JsonObject D) : Prop :=
  ∃ b, (authorize P s authObj).1 = .returned b ∧ (b = false → (authorize P s authObj).2 = s)

/-- The first statement that cannot be carried out fails with a `JSONException`, and what the
response gives before it is what the account has. -/
def RejectedWithoutChange (P : Platform F D) (s : Store F D) (o : JsonObject D) : Prop :=
  ∃ before c after, authorizeClauses = before ++ c :: after ∧
    Succeed (Clause.outcome P o s.account.field) before ∧
    c.outcome P o s.account.field = .error .jsonException ∧
    ∀ f v, Last f v (given (Clause.outcome P o s.account.field) before) → s.account.field f = v

/-- Every statement can be carried out, and everything that is unboxed to be saved is there. -/
def Complete (P : Platform F D) (s : Store F D) (o : JsonObject D) : Prop :=
  Succeed (Clause.outcome P o s.account.field) authorizeClauses ∧
    (∀ f, Supplied o s.account.field f) ∧ s.account.lng ≠ none

/-- The fields after the statements, and how these end. -/
theorem setFields_cases (P : Platform F D) (o : JsonObject D) (a : ∀ f, Value F f) :
    (Succeed (Clause.outcome P o a) authorizeClauses ∧
        setFields P o a = (assign a (given (Clause.outcome P o a) authorizeClauses), none)) ∨
      ∃ before c after e, authorizeClauses = before ++ c :: after ∧
        Succeed (Clause.outcome P o a) before ∧ c.outcome P o a = .error e ∧
        setFields P o a = (assign a (given (Clause.outcome P o a) before), some e) :=
  run_cases fun _ _ _ h hbefore => eval_eq_outcome P o a h hbefore

section

variable {s : Store F D} {authObj : JsonObject D}

theorem authorize_of_no_data (ho : authObj.getJSONObject "data".toList = none) :
    authorize P s authObj = (.returned false, s) := by
  rw [authorize, ho]

variable (ho : authObj.getJSONObject "data".toList = some o) {field : ∀ f, Value F f}
include ho

theorem authorize_of_jsonException
    (h : setFields P o s.account.field = (field, some .jsonException)) :
    authorize P s authObj = (.returned false, s.withFields field) := by
  rw [authorize, ho]
  simp only [h]

theorem authorize_of_nullPointerException
    (h : setFields P o s.account.field = (field, some .nullPointerException)) :
    authorize P s authObj = (.thrown .nullPointerException, s.withFields field) := by
  rw [authorize, ho]
  simp only [h]

theorem authorize_of_set {s' : Store F D} {e : Option Failure}
    (h : setFields P o s.account.field = (field, none))
    (hsave : saveData P (s.withFields field) = (s', e)) :
    authorize P s authObj =
      (match e with
        | none => .returned true
        | some e => .thrown e, s') := by
  rw [authorize, ho]
  simp only [h, hsave]
  cases e <;> rfl

end

theorem not_allOrNothing_of_thrown {s s' : Store F D} {authObj : JsonObject D} {e : Failure}
    (h : authorize P s authObj = (.thrown e, s')) : ¬ AllOrNothing P s authObj := by
  rintro ⟨b, hb, -⟩
  rw [h] at hb
  cases hb

theorem withFields_eq_self_iff {s : Store F D} {field : ∀ f, Value F f} :
    s.withFields field = s ↔ field = s.account.field := by
  constructor
  · intro h
    rw [← h]
    rfl
  · rintro rfl
    rfl

section

variable {s : Store F D} {authObj : JsonObject D}

/-- When every statement can be carried out, nothing is lost unless `saveData` throws. -/
theorem allOrNothing_iff_of_succeed (ho : authObj.getJSONObject "data".toList = some o)
    (hall : Succeed (Clause.outcome P o s.account.field) authorizeClauses)
    (hset : setFields P o s.account.field =
      (assign s.account.field (given (Clause.outcome P o s.account.field) authorizeClauses), none)) :
    AllOrNothing P s authObj ↔ RejectedWithoutChange P s o ∨ Complete P s o := by
  have hrejected : ¬ RejectedWithoutChange P s o := by
    rintro ⟨before, c, after, hcs, -, hc, -⟩
    obtain ⟨x, hx⟩ := hall c (by simp [hcs])
    rw [hc] at hx
    cases hx
  rw [or_iff_right hrejected, Complete, ← unboxed_iff hall]
  by_cases hsaves : (∀ f : Field, f.unboxed → ¬ IsNull f
      (assign s.account.field (given (Clause.outcome P o s.account.field) authorizeClauses) f)) ∧
        s.account.lng ≠ none
  · obtain ⟨lng, hlng⟩ := Option.ne_none_iff_exists'.1 hsaves.2
    obtain ⟨account, hsave⟩ := saveData_of_unboxes P (s := s.withFields _) hsaves.1 hlng
    refine iff_of_true ⟨true, ?_⟩ ⟨hall, hsaves⟩
    rw [authorize_of_set ho hset hsave]
    exact ⟨rfl, fun h => by cases h⟩
  · obtain ⟨s', hsave⟩ := saveData_of_not_unboxes P (s := s.withFields _) hsaves
    refine iff_of_false ?_ fun h => hsaves h.2
    exact not_allOrNothing_of_thrown (authorize_of_set ho hset hsave)

/-- When a statement fails, what is set before it has to be there already. -/
theorem allOrNothing_iff_of_failure (ho : authObj.getJSONObject "data".toList = some o)
    {before after : List Clause} {c : Clause} {e : Failure}
    (hcs : authorizeClauses = before ++ c :: after)
    (hbefore : Succeed (Clause.outcome P o s.account.field) before)
    (hc : c.outcome P o s.account.field = .error e)
    (hset : setFields P o s.account.field =
      (assign s.account.field (given (Clause.outcome P o s.account.field) before), some e)) :
    AllOrNothing P s authObj ↔ RejectedWithoutChange P s o ∨ Complete P s o := by
  have hcomplete : ¬ Complete P s o := by
    rintro ⟨hall, -⟩
    obtain ⟨x, hx⟩ := hall c (by simp [hcs])
    rw [hc] at hx
    cases hx
  rw [or_iff_left hcomplete]
  cases e with
  | nullPointerException =>
      refine iff_of_false ?_ ?_
      · exact not_allOrNothing_of_thrown (authorize_of_nullPointerException ho hset)
      · rintro ⟨before', c', after', hcs', hbefore', hc', -⟩
        obtain ⟨-, rfl⟩ := first_failure_unique (hcs.symm.trans hcs') hbefore hbefore' hc hc'
        rw [hc] at hc'
        cases hc'
  | jsonException =>
      have hunchanged : AllOrNothing P s authObj ↔ ∀ f v,
          Last f v (given (Clause.outcome P o s.account.field) before) →
            s.account.field f = v := by
        rw [← assign_eq_self_iff, ← withFields_eq_self_iff, AllOrNothing,
          authorize_of_jsonException ho hset]
        simp
      rw [hunchanged]
      constructor
      · intro h
        exact ⟨before, c, after, hcs, hbefore, hc, h⟩
      · rintro ⟨before', c', after', hcs', hbefore', hc', h⟩
        obtain ⟨rfl, -⟩ := first_failure_unique (hcs.symm.trans hcs') hbefore hbefore' hc hc'
        exact h

end

/-- **All or nothing.** A call returns, and changes nothing when it returns false, exactly when
there is no object `data`, or what is set before the first field that cannot be read is what was
there, or everything can be read and saved. -/
theorem allOrNothing_iff (P : Platform F D) (s : Store F D) (authObj : JsonObject D) :
    AllOrNothing P s authObj ↔
      authObj.getJSONObject "data".toList = none ∨
        ∃ o, authObj.getJSONObject "data".toList = some o ∧
          (RejectedWithoutChange P s o ∨ Complete P s o) := by
  cases ho : authObj.getJSONObject "data".toList with
  | none =>
      refine iff_of_true ⟨false, ?_⟩ (Or.inl rfl)
      rw [authorize_of_no_data ho]
      exact ⟨rfl, fun _ => rfl⟩
  | some o =>
      have hright : (some o = none ∨ ∃ o', some o = some o' ∧
          (RejectedWithoutChange P s o' ∨ Complete P s o')) ↔
            RejectedWithoutChange P s o ∨ Complete P s o := by
        simp
      rw [hright]
      rcases setFields_cases P o s.account.field with
        ⟨hall, hset⟩ | ⟨before, c, after, e, hcs, hbefore, hc, hset⟩
      · exact allOrNothing_iff_of_succeed ho hall hset
      · exact allOrNothing_iff_of_failure ho hcs hbefore hc hset

end

/-- A response with a name and no address is rejected, and the name stays. -/
theorem rejected_name_stays :
    ¬ ∀ (P : Platform Text Text) (s : Store Text Text) (authObj : JsonObject Text),
      AllOrNothing P s authObj := by
  intro h
  let s : Store Text Text := ⟨Account.initial .printed, fun _ => none⟩
  let authObj : JsonObject Text :=
    [("data".toList, .object [("username".toList, .string "eve".toList)])]
  obtain ⟨b, hb, hsame⟩ := h .printed s authObj
  have hfalse : (authorize .printed s authObj).1 = .returned false := by decide
  rw [hfalse] at hb
  cases hb
  have hname := congrArg (fun s' => s'.account.text .username) (hsame rfl)
  revert hname
  decide

end PortVpn.App
