import PortVpn.App.Authorize
import Mathlib.Data.List.Nodup

/-!
# The account after a restart

A new process has `readData` fill the fields from what `saveData` put into the preferences. The
three listings of keys do not agree: five keys of a response are not read again,
`free_time_msg_after` is read but never put, and the address of a response is taken only when there is a name.
`restored_iff` says for which responses all values come back.

Between the listings stand two facts: a field that is put under the key it is read from comes back
(`eval_of_saved`), and a field is read and put under the key of its own statement
(`saved_and_read`).
-/

set_option autoImplicit false

namespace PortVpn.App

open PortVpn.Lib

/-! ## The listings -/

/-- The keys of a response that `authorize` handles, with their fields. -/
def accountKeys : List (Text × Field) :=
  [("username".toList, .text .username),
    ("email".toList, .text .email),
    ("expires_at".toList, .text .expires_at),
    ("free_time".toList, .int .free_time),
    ("free_time_msg".toList, .text .free_time_msg),
    ("free_time_msg_after".toList, .text .free_time_msg_after),
    ("sku_1".toList, .text (.sku .one)),
    ("sku_2".toList, .text (.sku .two)),
    ("sku_3".toList, .text (.sku .three)),
    ("sku_4".toList, .text (.sku .four)),
    ("sku_5".toList, .text (.sku .five)),
    ("sku_1_title".toList, .text (.sku_title .one)),
    ("sku_2_title".toList, .text (.sku_title .two)),
    ("sku_3_title".toList, .text (.sku_title .three)),
    ("sku_4_title".toList, .text (.sku_title .four)),
    ("sku_5_title".toList, .text (.sku_title .five)),
    ("sku_1_save".toList, .text (.sku_save .one)),
    ("sku_2_save".toList, .text (.sku_save .two)),
    ("sku_3_save".toList, .text (.sku_save .three)),
    ("sku_4_save".toList, .text (.sku_save .four)),
    ("sku_5_save".toList, .text (.sku_save .five)),
    ("sku_1_price_title".toList, .text (.sku_price_title .one)),
    ("sku_2_price_title".toList, .text (.sku_price_title .two)),
    ("sku_3_price_title".toList, .text (.sku_price_title .three)),
    ("sku_4_price_title".toList, .text (.sku_price_title .four)),
    ("sku_5_price_title".toList, .text (.sku_price_title .five)),
    ("sku_1_price".toList, .float (.sku_price .one)),
    ("btc".toList, .float .btc),
    ("wallet".toList, .text .wallet),
    ("sku_2_price".toList, .float (.sku_price .two)),
    ("sku_3_price".toList, .float (.sku_price .three)),
    ("sku_4_price".toList, .float (.sku_price .four)),
    ("sku_5_price".toList, .float (.sku_price .five)),
    ("subscribed".toList, .subscription),
    ("account_mode".toList, .text .account_mode),
    ("google_billing_key".toList, .text .Google_billing_key),
    ("flutterwave_enc_key".toList, .text .flutterwave_enc_key),
    ("flutterwave_pub_key".toList, .text .flutterwave_pub_key),
    ("appodeal_key".toList, .text .appodeal_key),
    ("fullname".toList, .text .fullname),
    ("token".toList, .text .accessToken)]

/-- The fields that are set from a response and not read again. -/
def lostFields : List Field :=
  [.float .btc, .text .Google_billing_key, .text .flutterwave_enc_key, .text .flutterwave_pub_key,
    .text .appodeal_key]

/-- The key that is read but never put, and its default. -/
def afterKey : Text := "free_time_msg_after".toList

def afterDefault : Text :=
  ("You're disconnected because you're using free account, please upgrade to prevent this " ++
    "disruption").toList

/-- The key that a statement reads. -/
def Clause.key : Clause → Option Text
  | setIf _ key _ => some key
  | setOr key _ _ => some key
  | subscribed => some "subscribed".toList
  | must key _ => some key
  | logObject => none
  | logPrice => none

/-- The key that a statement asks for. -/
def Clause.test : Clause → Option Text
  | setIf test _ _ => some test
  | setOr key _ _ => some key
  | subscribed => some "subscribed".toList
  | must key _ => some key
  | logObject => none
  | logPrice => none

def ReadEntry.key : ReadEntry → Text
  | text _ key _ => key
  | price _ key => key
  | int _ key _ => key
  | boolean key _ => key

def ReadEntry.field : ReadEntry → Field
  | text f _ _ => .text f
  | price p _ => .float (.sku_price p)
  | int f _ _ => .int f
  | boolean _ _ => .subscription

/-- What the three listings agree on, and where they do not. -/
structure ListingsAgree : Prop where
  /-- No preference is put for two fields. -/
  saved_keys_nodup : (savedFields.map Prod.fst).Nodup
  /-- No field is read twice. -/
  read_fields_nodup : (readEntries.map ReadEntry.field).Nodup
  /-- `saveData` puts neither the position nor `free_time_msg_after` among the fields. -/
  saved_key_ne : ∀ e ∈ savedFields, e.1 ≠ "lat".toList ∧ e.1 ≠ "lng".toList ∧ e.1 ≠ afterKey
  /-- The other fields are put under the keys they are read from. -/
  find_saved : ∀ r ∈ readEntries,
    r = .text .free_time_msg_after afterKey afterDefault ∨
      (savedFields.find? fun e => e.2 = r.field).map Prod.fst = some r.key
  /-- A field that is not lost is read, from whatever key. -/
  exists_read_entry : ∀ e ∈ accountKeys, e.2 ∉ lostFields → ∃ r ∈ readEntries, r.field = e.2
  not_read : ∀ f ∈ lostFields, ∀ r ∈ readEntries, r.field ≠ f
  /-- A field that is not lost is set from its own key only. -/
  key_of_target : ∀ e ∈ accountKeys, e.2 ∉ lostFields →
    ∀ c ∈ authorizeClauses, c.target = some e.2 → c.key = some e.1
  /-- It is set whenever the response has the key; the address needs the name. -/
  exists_clause : ∀ e ∈ accountKeys, e.2 ∉ lostFields → ∃ c ∈ authorizeClauses,
    c.target = some e.2 ∧
      c.test = some (if e.2 = .text .email then "username".toList else e.1)

theorem listings : ListingsAgree where
  saved_keys_nodup := by decide +kernel
  read_fields_nodup := by decide +kernel
  saved_key_ne := by decide +kernel
  find_saved := by decide +kernel
  exists_read_entry := by decide +kernel
  not_read := by decide +kernel
  key_of_target := by decide +kernel
  exists_clause := by decide +kernel

/-- Every field but one is put under the key it is read from. -/
theorem read_entry_cases {r : ReadEntry} (hr : r ∈ readEntries) :
    r = .text .free_time_msg_after afterKey afterDefault ∨ (r.key, r.field) ∈ savedFields := by
  refine (listings.find_saved r hr).imp_right fun h => ?_
  obtain ⟨e, hfind, hkey⟩ := Option.map_eq_some_iff.1 h
  have hfield : e.2 = r.field := by simpa using List.find?_some hfind
  rw [← hkey, ← hfield]
  exact List.mem_of_find?_eq_some hfind

section

variable {F D : Type} {P : Platform F D}

/-! ## What a statement takes from its key -/

theorem read_of_get {o : JsonObject D} {key : Text} {f : Field} {j : Json D} {v : Value F f}
    (hj : o.lookup key = some j) (h : o.get P key f = .ok v) : f.read P j = some v := by
  cases hread : f.read P j with
  | none =>
      simp only [JsonObject.get, hj, hread] at h
      cases h
  | some w =>
      simp only [JsonObject.get, hj, hread] at h
      cases h
      rfl

theorem has_of_lookup {o : JsonObject D} {key : Text} {j : Json D} (hj : o.lookup key = some j) :
    o.has key := by
  rw [JsonObject.has, hj]
  rfl

theorem map_get {o : JsonObject D} {key : Text} {f : Field} {x : Option (Assignment (Value F))}
    (h : (o.get P key f).map (fun v => some (⟨f, v⟩ : Assignment (Value F))) = .ok x) :
    ∃ v, o.get P key f = .ok v ∧ x = some ⟨f, v⟩ := by
  cases hget : o.get P key f with
  | error e =>
      rw [hget] at h
      cases h
  | ok v =>
      rw [hget] at h
      cases h
      exact ⟨v, rfl, rfl⟩

/-- A statement assigns what the response has under its key, when it has that. -/
theorem Clause.read_of_outcome {o : JsonObject D} {a : ∀ f, Value F f} {c : Clause} {f : Field}
    {v : Value F f} {key : Text} {j : Json D} (hkey : c.key = some key)
    (hj : o.lookup key = some j) (h : c.outcome P o a = .ok (some ⟨f, v⟩)) :
    f.read P j = some v := by
  have hread : ∀ {g : Field},
      (o.get P key g).map (fun v => some (⟨g, v⟩ : Assignment (Value F))) = .ok (some ⟨f, v⟩) →
        f.read P j = some v := by
    intro g hmap
    obtain ⟨w, hget, hw⟩ := map_get hmap
    cases hw
    exact read_of_get hj hget
  have hhas := has_of_lookup hj
  cases c with
  | logPrice => cases hkey
  | logObject => cases hkey
  | must key' f' =>
      cases hkey
      exact hread h
  | setIf test key' f' =>
      cases hkey
      change (setIf test key f').eval P o a = _ at h
      rw [eval] at h
      split at h
      · exact hread h
      · cases h
  | setOr key' f' default =>
      cases hkey
      change (setOr key f' default).eval P o a = _ at h
      -- the response has the key, so the default does not count
      rw [eval, if_pos hhas] at h
      exact hread h
  | subscribed =>
      cases hkey
      change subscribed.eval P o a = _ at h
      rw [eval, if_pos hhas] at h
      exact hread h

/-- A statement that succeeds assigns its field when the response has the key it asks for. -/
theorem Clause.assigns_of_test {o : JsonObject D} {a : ∀ f, Value F f} {c : Clause} {f : Field}
    {test : Text} {x : Option (Assignment (Value F))} (hf : c.target = some f)
    (htest : c.test = some test) (hhas : o.has test) (h : c.outcome P o a = .ok x) :
    ∃ v, x = some ⟨f, v⟩ := by
  have hassign : ∀ {key : Text},
      (o.get P key f).map (fun v => some (⟨f, v⟩ : Assignment (Value F))) = .ok x →
        ∃ v, x = some ⟨f, v⟩ := by
    intro key hmap
    obtain ⟨v, -, hx⟩ := map_get hmap
    exact ⟨v, hx⟩
  cases c with
  | logPrice => cases hf
  | logObject => cases hf
  | must key f' =>
      cases hf
      exact hassign h
  | setIf test' key f' =>
      cases hf
      cases htest
      change (setIf test key f).eval P o a = _ at h
      rw [eval, if_pos hhas] at h
      exact hassign h
  | setOr key f' default =>
      cases hf
      cases htest
      change (setOr test f' default).eval P o a = _ at h
      rw [eval, if_pos hhas] at h
      exact hassign h
  | subscribed =>
      cases hf
      cases htest
      change subscribed.eval P o a = _ at h
      rw [eval, if_pos hhas] at h
      exact hassign h

/-- After all statements a field that is not lost holds what the response has under its key. -/
theorem read_of_succeed {o : JsonObject D} {a : ∀ f, Value F f}
    (hall : Succeed (Clause.outcome P o a) authorizeClauses) {e : Text × Field}
    (he : e ∈ accountKeys) (hlost : e.2 ∉ lostFields) {j : Json D} (hj : o.lookup e.1 = some j)
    (hname : e.2 = .text .email → o.has "username".toList) :
    e.2.read P j =
        some (assign a (given (Clause.outcome P o a) authorizeClauses) e.2) ∧
      ¬ IsNull e.2 (assign a (given (Clause.outcome P o a) authorizeClauses) e.2) := by
  obtain ⟨c, hc, htarget, htest⟩ := listings.exists_clause e he hlost
  obtain ⟨x, hx⟩ := hall c hc
  have hhas : o.has (if e.2 = .text .email then "username".toList else e.1) := by
    split
    case isTrue hemail => exact hname hemail
    case isFalse => exact has_of_lookup hj
  obtain ⟨v, rfl⟩ := Clause.assigns_of_test htarget htest hhas hx
  have hread := Clause.read_of_outcome (listings.key_of_target e he hlost c hc htarget) hj hx
  -- every statement for the field reads the same key, so the last one does
  have hvalue : assign a (given (Clause.outcome P o a) authorizeClauses) e.2 = v := by
    apply assign_of_forall (mem_given.2 ⟨c, hc, hx⟩)
    intro v' hv'
    obtain ⟨c', hc', hx'⟩ := mem_given.1 hv'
    have hread' := Clause.read_of_outcome
      (listings.key_of_target e he hlost c' hc' (Clause.outcome_spec hx').1) hj hx'
    rw [hread] at hread'
    exact (Option.some.inj hread').symm
  rw [hvalue]
  exact ⟨hread, (Clause.outcome_spec hx).2⟩

/-! ## What is put and read -/

/-- The preferences after `saveData`. -/
def prefsAfter (P : Platform F D) (field : ∀ f, Value F f) (prefs : Prefs F) (lat : Option D)
    (lng : D) : Prefs F :=
  assign prefs (saved field savedFields ++ savedPosition P lat lng)

section

variable {field : ∀ f, Value F f} {prefs : Prefs F} {lat : Option D} {lng : D}

theorem mem_saved {key : Text} {v : Option (PrefValue F)} :
    (⟨key, v⟩ : Assignment fun _ : Text => Option (PrefValue F)) ∈ saved field savedFields ↔
      ∃ f, (key, f) ∈ savedFields ∧ savedValue field f = v := by
  rw [saved, List.mem_map]
  constructor
  · rintro ⟨e, he, heq⟩
    cases heq
    exact ⟨e.2, he, rfl⟩
  · rintro ⟨f, he, rfl⟩
    exact ⟨(key, f), he, rfl⟩

theorem key_of_mem_savedPosition {x : Assignment fun _ : Text => Option (PrefValue F)}
    (h : x ∈ savedPosition P lat lng) : x.1 = "lat".toList ∨ x.1 = "lng".toList := by
  rcases List.mem_cons.1 h with rfl | h
  · exact Or.inl rfl
  · rw [List.mem_singleton.1 h]
    exact Or.inr rfl

theorem prefsAfter_saved (P : Platform F D) (prefs : Prefs F) (lat : Option D) (lng : D)
    {key : Text} {f : Field} (h : (key, f) ∈ savedFields) :
    prefsAfter P field prefs lat lng key = savedValue field f := by
  obtain ⟨hlat, hlng, -⟩ := listings.saved_key_ne _ h
  rw [prefsAfter, assign_append, assign_of_not_mem]
  · apply assign_of_forall (mem_saved.2 ⟨f, h, rfl⟩)
    intro v hv
    obtain ⟨f', h', rfl⟩ := mem_saved.1 hv
    have heq := List.inj_on_of_nodup_map listings.saved_keys_nodup h' h rfl
    rw [(Prod.mk.inj heq).2]
  · intro x hx
    rcases key_of_mem_savedPosition hx with hkey | hkey
    · exact hkey ▸ Ne.symm hlat
    · exact hkey ▸ Ne.symm hlng

theorem prefsAfter_afterKey : prefsAfter P field prefs lat lng afterKey = prefs afterKey := by
  rw [prefsAfter, assign_of_not_mem]
  intro x hx
  rcases List.mem_append.1 hx with hx | hx
  · obtain ⟨f, hf, -⟩ := mem_saved.1 hx
    exact (listings.saved_key_ne _ hf).2.2
  · rcases key_of_mem_savedPosition hx with hkey | hkey
    · rw [hkey]
      decide
    · rw [hkey]
      decide

theorem readDouble_prefsAfter :
    readDouble P (prefsAfter P field prefs lat lng) "lat".toList = some (lat.getD P.zero) ∧
      readDouble P (prefsAfter P field prefs lat lng) "lng".toList = some lng := by
  have hne : "lat".toList ≠ "lng".toList := by decide
  have hlat : prefsAfter P field prefs lat lng "lat".toList =
      some (.string (P.printDouble (lat.getD P.zero))) := by
    rw [prefsAfter, assign_append, savedPosition, assign_cons, assign_cons, assign_nil,
      Function.update_of_ne hne, Function.update_self]
  have hlng : prefsAfter P field prefs lat lng "lng".toList =
      some (.string (P.printDouble lng)) := by
    rw [prefsAfter, assign_append, savedPosition, assign_cons, assign_cons, assign_nil,
      Function.update_self]
  simp only [readDouble, hlat, hlng, P.parse_print, and_self]

end

theorem savedValue_float (field : ∀ f, Value F f) (f : FloatField) :
    savedValue field (.float f) = Option.map PrefValue.float (field (.float f)) := by
  rw [savedValue, getter_of_unboxed rfl]
  cases field (.float f) <;> rfl

theorem savedValue_subscription (field : ∀ f, Value F f) :
    savedValue field .subscription = Option.map PrefValue.boolean (field .subscription) := by
  rw [savedValue, getter_of_unboxed rfl]
  cases field .subscription <;> rfl

theorem ReadEntry.eval_spec {prefs : Prefs F} {r : ReadEntry} {x : Assignment (Value F)}
    (h : r.eval P prefs = .ok (some x)) : x.1 = r.field := by
  cases r <;> simp only [eval] at h <;> split at h <;> cases h <;> rfl

/-- A field that is put under the key it is read from comes back as its getter gave it. -/
theorem ReadEntry.eval_of_saved {field : ∀ f, Value F f} {prefs : Prefs F} {r : ReadEntry}
    (h : prefs r.key = savedValue field r.field) :
    ∃ v, r.eval P prefs = .ok (some ⟨r.field, v⟩) ∧
      (¬ IsNull r.field (getter r.field (field r.field)) →
        v = getter r.field (field r.field)) := by
  cases r with
  | text f key default =>
      change prefs key = (getter (.text f) (field (.text f))).map .string at h
      cases hv : getter (.text f) (field (.text f)) with
      -- null was put as nothing, and the default is read
      | none =>
          rw [hv] at h
          exact ⟨some default, by simp only [eval, h]; rfl, fun hnot => absurd hv hnot⟩
      | some t =>
          rw [hv] at h
          exact ⟨some t, by simp only [eval, h]; rfl, fun _ => hv.symm⟩
  | price p key =>
      change prefs key = savedValue field (.float (.sku_price p)) at h
      rw [savedValue_float] at h
      cases hv : field (.float (.sku_price p)) with
      | none =>
          rw [hv] at h
          exact ⟨some P.float_def, by simp only [eval, h]; rfl, fun hnot => absurd hv hnot⟩
      | some x =>
          rw [hv] at h
          exact ⟨some x, by simp only [eval, h]; rfl, fun _ => hv.symm⟩
  | int f key default =>
      change prefs key = some (.int (field (.int f))) at h
      exact ⟨field (.int f), by simp only [eval, h]; rfl, fun _ => rfl⟩
  | boolean key default =>
      change prefs key = savedValue field .subscription at h
      rw [savedValue_subscription] at h
      cases hv : field .subscription with
      | none =>
          rw [hv] at h
          exact ⟨some default, by simp only [eval, h]; rfl, fun hnot => absurd hv hnot⟩
      | some b =>
          rw [hv] at h
          exact ⟨some b, by simp only [eval, h]; rfl, fun _ => hv.symm⟩

/-- The fields after the reads of the preferences, and how these end. -/
theorem readFields_cases (P : Platform F D) (prefs : Prefs F) (a : ∀ f, Value F f) :
    (Succeed (ReadEntry.eval P prefs) readEntries ∧
        run (fun _ r => ReadEntry.eval P prefs r) a readEntries =
          (assign a (given (ReadEntry.eval P prefs) readEntries), none)) ∨
      ∃ before r after e, readEntries = before ++ r :: after ∧
        Succeed (ReadEntry.eval P prefs) before ∧ r.eval P prefs = .error e ∧
        run (fun _ r => ReadEntry.eval P prefs r) a readEntries =
          (assign a (given (ReadEntry.eval P prefs) before), some e) :=
  run_cases fun _ _ _ _ _ => rfl

/-- What `readData` reads under `free_time_msg_after`; `none` is a `ClassCastException`. -/
def messageAfter (prefs : Prefs F) : Option Text :=
  match prefs afterKey with
  | none => some afterDefault
  | some (.string t) => some t
  | some _ => none

def afterEntry : ReadEntry := .text .free_time_msg_after afterKey afterDefault

theorem afterEntry_mem : afterEntry ∈ readEntries := by
  decide +kernel

theorem eval_afterEntry (prefs : Prefs F) :
    afterEntry.eval P prefs =
      match messageAfter prefs with
      | none => .error ()
      | some t => .ok (some ⟨.text .free_time_msg_after, some t⟩) := by
  simp only [afterEntry, ReadEntry.eval, messageAfter]
  cases prefs afterKey with
  | none => rfl
  | some v => cases v <;> rfl

section

variable {field : ∀ f, Value F f} {prefs : Prefs F} {lat : Option D} {lng : D}

theorem messageAfter_prefsAfter :
    messageAfter (prefsAfter P field prefs lat lng) = messageAfter prefs := by
  rw [messageAfter, prefsAfter_afterKey, messageAfter]

/-- A preference of another type under `free_time_msg_after` ends the process. -/
theorem readData_of_messageAfter_none (h : messageAfter prefs = none) :
    readData P (prefsAfter P field prefs lat lng) (Account.initial P) = none := by
  rw [readData]
  rcases readFields_cases P (prefsAfter P field prefs lat lng) (Account.initial P).field with
    ⟨hall, -⟩ | ⟨b, c, a, e, -, -, -, hrun⟩
  · obtain ⟨x, hx⟩ := hall afterEntry afterEntry_mem
    rw [eval_afterEntry, messageAfter_prefsAfter, h] at hx
    cases hx
  · rw [hrun]

/-- Otherwise every field that is read holds what its preference gives, and the others are as in a
new process. -/
theorem readData_of_messageAfter (P : Platform F D) (field : ∀ f, Value F f) {prefs : Prefs F}
    (lat : Option D) (lng : D) {t : Text} (h : messageAfter prefs = some t) :
    ∃ a', readData P (prefsAfter P field prefs lat lng) (Account.initial P) = some a' ∧
      (∀ r ∈ readEntries, ∀ v,
        r.eval P (prefsAfter P field prefs lat lng) = .ok (some ⟨r.field, v⟩) →
          a'.field r.field = v) ∧
      ∀ f, (∀ r ∈ readEntries, r.field ≠ f) → a'.field f = (Account.initial P).field f := by
  -- no read throws: what is saved has the type that is read
  have hall : Succeed (ReadEntry.eval P (prefsAfter P field prefs lat lng)) readEntries := by
    intro r hr
    rcases read_entry_cases hr with hafter | hsaved
    · refine ⟨some ⟨.text .free_time_msg_after, some t⟩, ?_⟩
      rw [hafter, ← afterEntry, eval_afterEntry, messageAfter_prefsAfter, h]
    · obtain ⟨v, hv, -⟩ := ReadEntry.eval_of_saved (P := P)
        (prefsAfter_saved P prefs lat lng hsaved)
      exact ⟨_, hv⟩
  -- a field is read once, so what is read for it stays
  have hread : ∀ r ∈ readEntries, ∀ v,
      r.eval P (prefsAfter P field prefs lat lng) = .ok (some ⟨r.field, v⟩) →
        assign (Account.initial P).field
          (given (ReadEntry.eval P (prefsAfter P field prefs lat lng)) readEntries) r.field = v := by
    intro r hr v hv
    apply assign_of_forall (mem_given.2 ⟨r, hr, hv⟩)
    intro v' hv'
    obtain ⟨r', hr', heval⟩ := mem_given.1 hv'
    have hsame := List.inj_on_of_nodup_map listings.read_fields_nodup hr' hr
      (ReadEntry.eval_spec heval).symm
    rw [hsame, hv] at heval
    cases heval
    rfl
  have hkept : ∀ f, (∀ r ∈ readEntries, r.field ≠ f) →
      assign (Account.initial P).field
        (given (ReadEntry.eval P (prefsAfter P field prefs lat lng)) readEntries) f =
          (Account.initial P).field f := by
    intro f hf
    apply assign_of_not_mem
    intro x hx hxf
    obtain ⟨r, hr, heval⟩ := mem_given.1 hx
    exact hf r hr ((ReadEntry.eval_spec heval).symm.trans hxf)
  rcases readFields_cases P (prefsAfter P field prefs lat lng) (Account.initial P).field with
    ⟨-, hrun⟩ | ⟨b, c, a, e, hcs, -, hc, -⟩
  · refine ⟨⟨_, some (lat.getD P.zero), some lng⟩, ?_, hread, hkept⟩
    rw [readData, hrun]
    simp only [readPosition, Account.initial, Option.getD_some, P.isZero_zero, if_true,
      readDouble_prefsAfter]
    rfl
  · obtain ⟨x, hx⟩ := hall c (by simp [hcs])
    rw [hc] at hx
    cases hx

end

/-! ## A restart -/

theorem getter_of_not_isNull {f : Field} {v : Value F f} (h : ¬ IsNull f v) : getter f v = v := by
  cases f with
  | text f =>
      cases v with
      | none => exact absurd rfl h
      | some t => cases f <;> rfl
  | float f => rfl
  | int f => rfl
  | subscription => rfl

/-- What a call that returns true has done. -/
theorem authorize_returned_true {s : Store F D} {authObj o : JsonObject D}
    (ho : authObj.getJSONObject "data".toList = some o)
    (h : (authorize P s authObj).1 = .returned true) :
    Succeed (Clause.outcome P o s.account.field) authorizeClauses ∧
      ∃ lng, (authorize P s authObj).2.prefs =
        prefsAfter P (assign s.account.field
          (given (Clause.outcome P o s.account.field) authorizeClauses)) s.prefs s.account.lat lng := by
  rcases setFields_cases P o s.account.field with
    ⟨hall, hset⟩ | ⟨before, c, after, e, -, -, -, hset⟩
  · refine ⟨hall, ?_⟩
    by_cases hsaves : (∀ f : Field, f.unboxed → ¬ IsNull f
        (assign s.account.field (given (Clause.outcome P o s.account.field) authorizeClauses) f)) ∧
          s.account.lng ≠ none
    · obtain ⟨lng, hlng⟩ := Option.ne_none_iff_exists'.1 hsaves.2
      obtain ⟨account, hsave⟩ := saveData_of_unboxes P (s := s.withFields _) hsaves.1 hlng
      refine ⟨lng, ?_⟩
      rw [authorize_of_set ho hset hsave]
      rfl
    -- `saveData` throws, so the call did not return
    · obtain ⟨s', hsave⟩ := saveData_of_not_unboxes P (s := s.withFields _) hsaves
      rw [authorize_of_set ho hset hsave] at h
      cases h
  · cases e with
    | jsonException =>
        rw [authorize_of_jsonException ho hset] at h
        cases h
    | nullPointerException =>
        rw [authorize_of_nullPointerException ho hset] at h
        cases h

/-- A new process reads back, for every key of the response that `authorize` handles, the value that
the response has there. -/
def Restored (P : Platform F D) (prefs : Prefs F) (o : JsonObject D) : Prop :=
  ∃ a', readData P prefs (Account.initial P) = some a' ∧
    ∀ e ∈ accountKeys, ∀ j, o.lookup e.1 = some j → e.2.read P j = some (a'.field e.2)

/-- The address in a response that has no name is the one that is known already. -/
def EmailKnown (P : Platform F D) (s : Store F D) (o : JsonObject D) : Prop :=
  ∀ j, o.lookup "email".toList = some j →
    o.has "username".toList ∨ j.getString P = some ((s.account.text .email).getD [])

/-- What the preferences have under `free_time_msg_after` is a text, and the one that the response
has there, if any. -/
def MessageKnown (P : Platform F D) (s : Store F D) (o : JsonObject D) : Prop :=
  ∃ t, messageAfter s.prefs = some t ∧ ∀ j, o.lookup afterKey = some j → j.getString P = some t

theorem key_of_field : ∀ e ∈ accountKeys,
    (e.2 = .text .email → e.1 = "email".toList) ∧
      (e.2 = .text .free_time_msg_after → e.1 = afterKey) := by
  decide +kernel

theorem entries_mem : ("email".toList, .text .email) ∈ accountKeys ∧
    (afterKey, .text .free_time_msg_after) ∈ accountKeys := by
  decide +kernel

/-- Without a name in the response, the address stays. -/
theorem email_kept {o : JsonObject D} {a : ∀ f, Value F f} (h : ¬ o.has "username".toList) :
    assign a (given (Clause.outcome P o a) authorizeClauses) (.text .email) = a (.text .email) := by
  have honly : ∀ c ∈ authorizeClauses, c.target = some (.text .email) →
      c = .setIf "username".toList "email".toList (.text .email) := by
    decide +kernel
  apply assign_of_not_mem
  intro x hx hfield
  obtain ⟨c, hc, hout⟩ := mem_given.1 hx
  have hset := honly c hc (hfield ▸ (Clause.outcome_spec hout).1)
  subst hset
  change Clause.eval P o a (.setIf "username".toList "email".toList (.text .email)) = _ at hout
  rw [Clause.eval, if_neg h] at hout
  cases hout

/-- What a new process has of the fields that were put: all but null values come back, the lost
fields are null. -/
structure ReadsBack (field : ∀ f, Value F f) (t : Text) (a' : Account F D) : Prop where
  saved : ∀ r ∈ readEntries, (r.key, r.field) ∈ savedFields →
    ¬ IsNull r.field (getter r.field (field r.field)) →
      a'.field r.field = getter r.field (field r.field)
  message : a'.field (.text .free_time_msg_after) = some t
  lost : ∀ f ∈ lostFields, IsNull f (a'.field f)

theorem exists_readsBack (P : Platform F D) (field : ∀ f, Value F f) {prefs : Prefs F}
    (lat : Option D) (lng : D) {t : Text} (h : messageAfter prefs = some t) :
    ∃ a', readData P (prefsAfter P field prefs lat lng) (Account.initial P) = some a' ∧
      ReadsBack field t a' := by
  obtain ⟨a', hread, hvalue, hkept⟩ := readData_of_messageAfter P field lat lng h
  refine ⟨a', hread, ?_, ?_, ?_⟩
  · intro r hr hsaved hnull
    obtain ⟨v, hv, hsame⟩ :=
      ReadEntry.eval_of_saved (P := P) (prefsAfter_saved P prefs lat lng hsaved)
    rw [hvalue r hr v hv, hsame hnull]
  · apply hvalue afterEntry afterEntry_mem
    rw [eval_afterEntry, messageAfter_prefsAfter, h]
    rfl
  · intro f hf
    -- what is not read is null in a new process
    have hnull : ∀ f ∈ lostFields, IsNull f ((Account.initial P).field f) := by
      simp only [lostFields, List.mem_cons, List.not_mem_nil, or_false, forall_eq_or_imp, forall_eq]
      exact ⟨rfl, rfl, rfl, rfl, rfl⟩
    rw [hkept f (listings.not_read f hf)]
    exact hnull f hf

section

variable {s : Store F D} {o : JsonObject D} {t : Text} {a' : Account F D}
  (hall : Succeed (Clause.outcome P o s.account.field) authorizeClauses)
  (hback : ReadsBack (assign s.account.field
    (given (Clause.outcome P o s.account.field) authorizeClauses)) t a')
include hback

/-- Without a name in the response, the address comes back as it was. -/
theorem ReadsBack.email (h : ¬ o.has "username".toList) :
    a'.field (.text .email) = some ((s.account.text .email).getD []) := by
  have hentry : ReadEntry.text .email "email".toList [] ∈ readEntries := by decide +kernel
  have hsaved : ("email".toList, Field.text .email) ∈ savedFields := by decide +kernel
  have hvalue : a'.field (.text .email) = getter (.text .email) _ :=
    hback.saved _ hentry hsaved (Option.some_ne_none _)
  rw [hvalue]
  change getter (.text .email) (assign s.account.field _ (.text .email)) = _
  rw [email_kept h]
  rfl

/-- What has to hold for the response to come back. -/
theorem known_of_restored
    (h : ∀ e ∈ accountKeys, ∀ j, o.lookup e.1 = some j → e.2.read P j = some (a'.field e.2)) :
    (∀ e ∈ accountKeys, e.2 ∈ lostFields → ¬ o.has e.1) ∧ EmailKnown P s o ∧
      ∀ j, o.lookup afterKey = some j → j.getString P = some t := by
  refine ⟨?_, ?_, ?_⟩
  · intro e he hlost hhas
    obtain ⟨j, hj⟩ := Option.isSome_iff_exists.1 hhas
    exact not_isNull_of_read (h e he j hj) (hback.lost e.2 hlost)
  · intro j hj
    by_cases hname : o.has "username".toList
    · exact Or.inl hname
    · right
      have hread := h _ entries_mem.1 j hj
      rw [hback.email hname] at hread
      obtain ⟨u, hu, heq⟩ := Option.map_eq_some_iff.1 hread
      rw [hu, Option.some.inj heq]
  · intro j hj
    have hread := h _ entries_mem.2 j hj
    rw [hback.message] at hread
    obtain ⟨u, hu, heq⟩ := Option.map_eq_some_iff.1 hread
    rw [hu, Option.some.inj heq]

include hall

/-- And it is enough. -/
theorem restored_of_known (hlost : ∀ e ∈ accountKeys, e.2 ∈ lostFields → ¬ o.has e.1)
    (hemail : EmailKnown P s o)
    (hmessage : ∀ j, o.lookup afterKey = some j → j.getString P = some t) :
    ∀ e ∈ accountKeys, ∀ j, o.lookup e.1 = some j → e.2.read P j = some (a'.field e.2) := by
  intro e he j hj
  have hkept : e.2 ∉ lostFields := fun hmem => hlost e he hmem (has_of_lookup hj)
  by_cases hafter : e.2 = .text .free_time_msg_after
  -- the message is what the preferences had before
  · obtain ⟨key, f⟩ := e
    cases hafter
    rw [hback.message]
    exact congrArg (Option.map some) (hmessage j ((key_of_field _ he).2 rfl ▸ hj))
  · by_cases hname : e.2 = .text .email → o.has "username".toList
    · -- the field holds what the response gave, and is read from the key it was put under
      obtain ⟨hread, hnull⟩ := read_of_succeed hall he hkept hj hname
      obtain ⟨r, hr, hfield⟩ := listings.exists_read_entry e he hkept
      have hsaved : (r.key, r.field) ∈ savedFields := by
        rcases read_entry_cases hr with rfl | hsaved
        · exact absurd hfield.symm hafter
        · exact hsaved
      rw [hread, ← hfield]
      rw [← hfield] at hnull
      have hgetter := getter_of_not_isNull hnull
      have hback' := hback.saved r hr hsaved (by rwa [hgetter])
      rw [hback', hgetter]
    -- without a name the address was not taken, and is what it was
    · obtain ⟨hfield, hno⟩ := Classical.not_imp.1 hname
      obtain ⟨key, f⟩ := e
      cases hfield
      have hj' : o.lookup "email".toList = some j := (key_of_field _ he).1 rfl ▸ hj
      have hsame := (hemail j hj').resolve_left hno
      rw [hback.email hno]
      exact congrArg (Option.map some) hsame

end

/-- **After a restart.** When `authorize` has returned true, a new process has every value of the
response again exactly when the response has none of the lost keys, no new address without a name,
and no message under `free_time_msg_after` but the one that is known. -/
theorem restored_iff (P : Platform F D) (s : Store F D) {authObj o : JsonObject D}
    (ho : authObj.getJSONObject "data".toList = some o)
    (h : (authorize P s authObj).1 = .returned true) :
    Restored P (authorize P s authObj).2.prefs o ↔
      (∀ e ∈ accountKeys, e.2 ∈ lostFields → ¬ o.has e.1) ∧ EmailKnown P s o ∧
        MessageKnown P s o := by
  obtain ⟨hall, lng, hprefs⟩ := authorize_returned_true ho h
  rw [hprefs]
  cases hmessage : messageAfter s.prefs with
  | none =>
      -- `readData` throws, and nothing is known of the message
      refine iff_of_false ?_ ?_
      · rintro ⟨a', hread, -⟩
        rw [readData_of_messageAfter_none hmessage] at hread
        cases hread
      · rintro ⟨-, -, t, ht, -⟩
        rw [hmessage] at ht
        cases ht
  | some t =>
      -- otherwise it returns, with what stands in the preferences
      obtain ⟨a', hread, hback⟩ := exists_readsBack P
        (assign s.account.field (given (Clause.outcome P o s.account.field) authorizeClauses))
        s.account.lat lng hmessage
      constructor
      · rintro ⟨b, hb, hrestored⟩
        rw [hread] at hb
        cases hb
        obtain ⟨hlost, hemail, hsame⟩ := known_of_restored hback hrestored
        exact ⟨hlost, hemail, t, hmessage, hsame⟩
      · rintro ⟨hlost, hemail, t', ht', hsame⟩
        rw [hmessage] at ht'
        cases ht'
        exact ⟨a', hread, restored_of_known hall hback hlost hemail hsame⟩

end

/-- A device on which an account with prices is known. -/
def pricedStore : Store Text Text where
  account := { Account.initial .printed with
    field
      | .float _ => some "2.5".toList
      | f => (Account.initial .printed).field f }
  prefs _ := none

/-- The part of a response that every login has. -/
def loginObject : JsonObject Text :=
  [("username".toList, .string "eve".toList), ("email".toList, .string "eve@example".toList),
    ("fullname".toList, .string "Eve".toList), ("token".toList, .string "t0".toList)]

theorem login_restored :
    Restored .printed (authorize .printed pricedStore [("data".toList, .object loginObject)]).2.prefs
      loginObject := by
  refine (restored_iff .printed pricedStore (o := loginObject) rfl (by decide +kernel)).2
    ⟨by decide +kernel, ?_, afterDefault, rfl, ?_⟩
  · intro j _
    exact Or.inl (by decide +kernel)
  · intro j hj
    have hnone : loginObject.lookup afterKey = none := by decide +kernel
    rw [hnone] at hj
    cases hj

/-- The rate of a response that names one is not there after a restart. -/
theorem btc_not_restored :
    ¬ ∀ (P : Platform Text Text) (s : Store Text Text) (authObj o : JsonObject Text),
      authObj.getJSONObject "data".toList = some o → (authorize P s authObj).1 = .returned true →
        Restored P (authorize P s authObj).2.prefs o := by
  intro h
  let o : JsonObject Text := ("btc".toList, .string "0.5".toList) :: loginObject
  let authObj : JsonObject Text := [("data".toList, .object o)]
  have ho : authObj.getJSONObject "data".toList = some o := rfl
  have htrue : (authorize .printed pricedStore authObj).1 = .returned true := by decide +kernel
  obtain ⟨a', hread, hrestored⟩ := h .printed pricedStore authObj o ho htrue
  obtain ⟨-, lng, hprefs⟩ := authorize_returned_true ho htrue
  have hmessage : messageAfter pricedStore.prefs = some afterDefault := rfl
  obtain ⟨b, hb, hback⟩ := exists_readsBack .printed _ pricedStore.account.lat lng hmessage
  rw [hprefs, hb] at hread
  cases hread
  have hbtc := hrestored ("btc".toList, .float .btc) (by decide +kernel) _ rfl
  exact not_isNull_of_read hbtc (hback.lost (.float .btc) (by decide +kernel))

end PortVpn.App
