import PortVpn.Lib.Assignments
import PortVpn.Lib.JavaInt
import PortVpn.Lib.JavaText

/-!
# The account of the user

`ICSOpenVPNApplication` keeps the account in its fields. `authorize` takes it from the response to a
login, `saveData` writes it to the preferences, and `readData` reads it from there when a process
starts. Each of the three is a listing of keys and fields of its own, and each is a list here, in
the order of the source.

A setter is an assignment to a field. The printed form of JSON values, `double` and `float` numbers
and the conversions between them are the platform's.
-/

set_option autoImplicit false

namespace PortVpn.App

open PortVpn.Lib

/-! ## The fields -/

/-- The packages that are sold; the number is part of the names of their fields. -/
inductive Package where
  | one
  | two
  | three
  | four
  | five
  deriving DecidableEq, Repr

/-- The fields of type `String`. -/
inductive TextField where
  | username
  | email
  | gender
  | photoUrl
  | expires_at
  | account_mode
  | accessToken
  | fullname
  | free_time_msg
  | free_time_msg_after
  | wallet
  | Google_billing_key
  | flutterwave_pub_key
  | flutterwave_enc_key
  | appodeal_key
  | sku (p : Package)
  | sku_title (p : Package)
  | sku_save (p : Package)
  | sku_price_title (p : Package)
  deriving DecidableEq, Repr

/-- The fields of type `Float`. -/
inductive FloatField where
  | sku_price (p : Package)
  | btc
  deriving DecidableEq, Repr

/-- The fields of type `int`. -/
inductive IntField where
  | free_time
  | verify
  deriving DecidableEq, Repr

/-- The fields of the account, without the position. -/
inductive Field where
  | text (f : TextField)
  | float (f : FloatField)
  | int (f : IntField)
  | subscription
  deriving DecidableEq, Repr

/-- What a field holds; `none` is null. -/
def Value (F : Type) : Field → Type
  | .text _ => Option Text
  | .float _ => Option F
  | .int _ => Int
  | .subscription => Option Bool

/-- The account in memory. -/
structure Account (F D : Type) where
  field : ∀ f : Field, Value F f
  lat : Option D
  lng : Option D

namespace Account

variable {F D : Type}

def text (a : Account F D) (f : TextField) : Option Text := a.field (.text f)

def getSku (a : Account F D) (p : Package) : Option Text := a.text (.sku p)

def getSku_price (a : Account F D) (p : Package) : Option F := a.field (.float (.sku_price p))

end Account

/-! ## Responses and the platform -/

/-- A JSON value; the keys of an object are distinct. -/
inductive Json (D : Type) where
  | null
  | bool (b : Bool)
  | int (i : Int)
  | long (l : Int)
  | double (d : D)
  | string (t : Text)
  | array (values : List (Json D))
  | object (entries : List (Text × Json D))

/-- A `JSONObject`. -/
abbrev JsonObject (D : Type) := List (Text × Json D)

/-- What the platform decides: the printed form of JSON values and of whole objects, of which there
is none when they hold a number that is not finite, and the numbers. -/
structure Platform (F D : Type) where
  valueOf : Json D → Option Text
  toString : JsonObject D → Option Text
  parseDouble : Text → Option D
  doubleOfInt : Int → D
  intValue : D → Int
  toFloat : D → F
  printDouble : D → Text
  float_def : F
  zero : D
  isZero : D → Bool
  parse_print : ∀ d, parseDouble (printDouble d) = some d
  isZero_zero : isZero zero = true

section

variable {F D : Type} (P : Platform F D)

/-- `JSON.toString`, as `getString` uses it; `getString` throws where there is no text. -/
def Json.getString : Json D → Option Text
  | .string t => some t
  | j => P.valueOf j

/-- `JSON.toInteger`, as `getInt` uses it. -/
def Json.getInt : Json D → Option Int
  | .int i => some i
  | .long l => some (wrap32 l)
  | .double d => some (P.intValue d)
  | .string t => (P.parseDouble t).map P.intValue
  | _ => none

/-- `JSON.toDouble`, as `getDouble` uses it. -/
def Json.getDouble : Json D → Option D
  | .int i => some (P.doubleOfInt i)
  | .long l => some (P.doubleOfInt l)
  | .double d => some d
  | .string t => P.parseDouble t
  | _ => none

/-- `getJSONObject`. -/
def JsonObject.getJSONObject (o : JsonObject D) (key : Text) : Option (JsonObject D) :=
  match o.lookup key with
  | some (.object entries) => some entries
  | _ => none

def JsonObject.has (o : JsonObject D) (key : Text) : Bool := (o.lookup key).isSome

/-- What a field takes from a JSON value. -/
def Field.read : (f : Field) → Json D → Option (Value F f)
  | .text _, j => (j.getString P).map some
  | .float _, j => (j.getDouble P).map fun d => some (P.toFloat d)
  | .int _, j => j.getInt P
  | .subscription, j => (j.getString P).map fun t => some (t == "yes".toList)

/-! ## `authorize` -/

/-- The two exceptions that `authorize` can meet. -/
inductive Failure where
  | jsonException
  | nullPointerException
  deriving DecidableEq, Repr

/-- What the response holds under a key, for a field. -/
def JsonObject.get (o : JsonObject D) (key : Text) (f : Field) : Except Failure (Value F f) :=
  match o.lookup key with
  | none => .error .jsonException
  | some j => match f.read P j with
    | none => .error .jsonException
    | some v => .ok v

/-- One statement of `authorize`. -/
inductive Clause where
  /-- `if (has(test)) set(get(key))` -/
  | setIf (test key : Text) (f : Field)
  /-- `if (has(key)) set(get(key)) else set(default)` -/
  | setOr (key : Text) (f : TextField) (default : Text)
  /-- The same for `subscribed`, which is compared with `yes`. -/
  | subscribed
  /-- `set(get(key))` -/
  | must (key : Text) (f : TextField)
  /-- `Log.e` of the whole response -/
  | logObject
  /-- `Log.e` of the price of the first package, when the response has one for the third -/
  | logPrice
  deriving DecidableEq, Repr

namespace Clause

/-- The usual statement, which asks for the key that it reads. -/
def set (key : Text) (f : Field) : Clause := setIf key key f

/-- What a statement assigns. `Log.e` throws when there is nothing to log. -/
def eval (o : JsonObject D) (a : ∀ f, Value F f) :
    Clause → Except Failure (Option (Assignment (Value F)))
  | setIf test key f =>
      if o.has test then (o.get P key f).map fun v => some ⟨f, v⟩ else .ok none
  | setOr key f default =>
      if o.has key then (o.get P key (.text f)).map fun v => some ⟨.text f, v⟩
      else .ok (some ⟨.text f, some default⟩)
  | subscribed =>
      if o.has "subscribed".toList then
        (o.get P "subscribed".toList .subscription).map fun v => some ⟨.subscription, v⟩
      else .ok (some ⟨.subscription, some false⟩)
  | must key f => (o.get P key (.text f)).map fun v => some ⟨.text f, v⟩
  | logObject => if (P.toString o).isNone then .error .nullPointerException else .ok none
  | logPrice =>
      let price : Option F := a (.float (.sku_price .one))
      if o.has "sku_3_price".toList && price.isNone then .error .nullPointerException else .ok none

end Clause

end

/-- The statements of `authorize`, behind the one that takes the object `data`. -/
def authorizeClauses : List Clause :=
  [.set "username".toList (.text .username),
    .setIf "username".toList "email".toList (.text .email),
    .setOr "expires_at".toList .expires_at "--:--:--".toList,
    .logObject,
    .set "free_time".toList (.int .free_time),
    .set "free_time_msg".toList (.text .free_time_msg),
    .set "free_time_msg_after".toList (.text .free_time_msg_after),
    .set "sku_1".toList (.text (.sku .one)),
    .set "sku_1".toList (.text (.sku .one)),
    .set "sku_2".toList (.text (.sku .two)),
    .set "sku_3".toList (.text (.sku .three)),
    .set "sku_4".toList (.text (.sku .four)),
    .set "sku_5".toList (.text (.sku .five)),
    .set "sku_1_title".toList (.text (.sku_title .one)),
    .set "sku_2_title".toList (.text (.sku_title .two)),
    .set "sku_3_title".toList (.text (.sku_title .three)),
    .set "sku_4_title".toList (.text (.sku_title .four)),
    .set "sku_5_title".toList (.text (.sku_title .five)),
    .set "sku_1_save".toList (.text (.sku_save .one)),
    .set "sku_2_save".toList (.text (.sku_save .two)),
    .set "sku_3_save".toList (.text (.sku_save .three)),
    .set "sku_4_save".toList (.text (.sku_save .four)),
    .set "sku_5_save".toList (.text (.sku_save .five)),
    .set "sku_1_price_title".toList (.text (.sku_price_title .one)),
    .set "sku_2_price_title".toList (.text (.sku_price_title .two)),
    .set "sku_3_price_title".toList (.text (.sku_price_title .three)),
    .set "sku_4_price_title".toList (.text (.sku_price_title .four)),
    .set "sku_5_price_title".toList (.text (.sku_price_title .five)),
    .set "sku_1_price".toList (.float (.sku_price .one)),
    .set "btc".toList (.float .btc),
    .set "wallet".toList (.text .wallet),
    .set "sku_2_price".toList (.float (.sku_price .two)),
    .set "sku_3_price".toList (.float (.sku_price .three)),
    .logPrice,
    .set "sku_4_price".toList (.float (.sku_price .four)),
    .set "sku_5_price".toList (.float (.sku_price .five)),
    .subscribed,
    .setOr "account_mode".toList .account_mode "Free".toList,
    .set "google_billing_key".toList (.text .Google_billing_key),
    .set "flutterwave_enc_key".toList (.text .flutterwave_pub_key),
    .set "flutterwave_pub_key".toList (.text .flutterwave_pub_key),
    .set "appodeal_key".toList (.text .appodeal_key),
    .must "fullname".toList .fullname,
    .must "token".toList .accessToken]

/-! ## The preferences -/

/-- A value of `SharedPreferences`. -/
inductive PrefValue (F : Type) where
  | string (t : Text)
  | float (x : F)
  | int (i : Int)
  | boolean (b : Bool)
  deriving DecidableEq, Repr

/-- The preferences, by their keys. -/
abbrev Prefs (F : Type) := Text → Option (PrefValue F)

/-- The account in memory and the preferences. -/
structure Store (F D : Type) where
  account : Account F D
  prefs : Prefs F

/-- Other values of the fields. -/
def Store.withFields {F D : Type} (s : Store F D) (field : ∀ f : Field, Value F f) : Store F D :=
  { s with account := { s.account with field := field } }

/-- The fields that `saveData` writes and their keys, in its order; the position follows. -/
def savedFields : List (Text × Field) :=
  [("free_time".toList, .int .free_time),
    ("free_time_msg".toList, .text .free_time_msg),
    ("sku_1".toList, .text (.sku .one)),
    ("btc".toList, .float .btc),
    ("wallet".toList, .text .wallet),
    ("sku_2".toList, .text (.sku .two)),
    ("sku_3".toList, .text (.sku .three)),
    ("sku_4".toList, .text (.sku .four)),
    ("sku_5".toList, .text (.sku .five)),
    ("sku_1_title".toList, .text (.sku_title .one)),
    ("sku_2_title".toList, .text (.sku_title .two)),
    ("sku_3_title".toList, .text (.sku_title .three)),
    ("sku_4_title".toList, .text (.sku_title .four)),
    ("sku_5_title".toList, .text (.sku_title .five)),
    ("sku_1_save".toList, .text (.sku_save .one)),
    ("sku_2_save".toList, .text (.sku_save .two)),
    ("sku_3_save".toList, .text (.sku_save .three)),
    ("sku_4_save".toList, .text (.sku_save .four)),
    ("sku_5_save".toList, .text (.sku_save .five)),
    ("sku_1_price".toList, .float (.sku_price .one)),
    ("sku_2_price".toList, .float (.sku_price .two)),
    ("sku_3_price".toList, .float (.sku_price .three)),
    ("sku_4_price".toList, .float (.sku_price .four)),
    ("sku_5_price".toList, .float (.sku_price .five)),
    ("sku_1_price_title".toList, .text (.sku_price_title .one)),
    ("sku_2_price_title".toList, .text (.sku_price_title .two)),
    ("sku_3_price_title".toList, .text (.sku_price_title .three)),
    ("sku_4_price_title".toList, .text (.sku_price_title .four)),
    ("sku_5_price_title".toList, .text (.sku_price_title .five)),
    ("username".toList, .text .username),
    ("expires_at".toList, .text .expires_at),
    ("account_mode".toList, .text .account_mode),
    ("email".toList, .text .email),
    ("gender".toList, .text .gender),
    ("token".toList, .text .accessToken),
    ("fullname".toList, .text .fullname),
    ("profile_pic".toList, .text .photoUrl),
    ("email_verified".toList, .int .verify),
    ("subscription".toList, .subscription)]

/-- What `readData` reads: a field, its key, and its default. The prices have one default. -/
inductive ReadEntry where
  | text (f : TextField) (key default : Text)
  | price (p : Package) (key : Text)
  | int (f : IntField) (key : Text) (default : Int)
  | boolean (key : Text) (default : Bool)
  deriving DecidableEq, Repr

/-- The fields that `readData` reads, in its order; the position follows. -/
def readEntries : List ReadEntry :=
  [.text .username "username".toList [],
    .text .wallet "wallet".toList [],
    .text .expires_at "expires_at".toList [],
    .text .account_mode "account_mode".toList [],
    .text .email "email".toList [],
    .text .gender "gender".toList [],
    .text .accessToken "token".toList [],
    .text .fullname "fullname".toList [],
    .text .photoUrl "profile_pic".toList [],
    .int .verify "email_verified".toList 0,
    .text .free_time_msg "free_time_msg".toList
      ("You'll be disconnected after sometime, you need to buy premium to get long term " ++
        "connection").toList,
    .text .free_time_msg_after "free_time_msg_after".toList
      ("You're disconnected because you're using free account, please upgrade to prevent this " ++
        "disruption").toList,
    .int .free_time "free_time".toList 10,
    .text (.sku .one) "sku_1".toList "sku_1".toList,
    .text (.sku .two) "sku_2".toList "sku_1".toList,
    .text (.sku .three) "sku_3".toList "sku_1".toList,
    .text (.sku .four) "sku_4".toList "sku_1".toList,
    .text (.sku .five) "sku_5".toList "sku_1".toList,
    .text (.sku_save .one) "sku_1_save".toList "Save 10%".toList,
    .text (.sku_save .two) "sku_2_save".toList "Save 10%".toList,
    .text (.sku_save .three) "sku_3_save".toList "Save 10%".toList,
    .text (.sku_save .four) "sku_4_save".toList "Save 10%".toList,
    .text (.sku_save .five) "sku_5_save".toList "Save 10%".toList,
    .text (.sku_title .one) "sku_1_title".toList "1 Month".toList,
    .text (.sku_title .two) "sku_2_title".toList "--".toList,
    .text (.sku_title .three) "sku_3_title".toList "--".toList,
    .text (.sku_title .four) "sku_4_title".toList "--".toList,
    .text (.sku_title .five) "sku_5_title".toList "--".toList,
    .text (.sku_price_title .one) "sku_1_price_title".toList "$19/Mo".toList,
    .text (.sku_price_title .two) "sku_2_price_title".toList "--".toList,
    .text (.sku_price_title .three) "sku_3_price_title".toList "--".toList,
    .text (.sku_price_title .four) "sku_4_price_title".toList "--".toList,
    .text (.sku_price_title .five) "sku_5_price_title".toList "--".toList,
    .price .one "sku_1_price".toList,
    .price .two "sku_2_price".toList,
    .price .three "sku_3_price".toList,
    .price .four "sku_4_price".toList,
    .price .five "sku_5_price".toList,
    .boolean "subscription".toList false]

section

variable {F D : Type} (P : Platform F D)

/-- The fields of a new process. -/
def Account.initial : Account F D where
  field
    | .text _ => none
    | .float _ => none
    | .int .free_time => (1 : Int)
    | .int .verify => (0 : Int)
    | .subscription => some false
  lat := some P.zero
  lng := some P.zero

/-- What the getter of a field returns. Four of them put an empty text for null. -/
def getter : (f : Field) → Value F f → Value F f
  | .text .username, v => some (v.getD [])
  | .text .email, v => some (v.getD [])
  | .text .fullname, v => some (v.getD [])
  | .text .photoUrl, v => some (v.getD [])
  | _, v => v

/-- What is put into the preferences for a field; a null text removes the key, and to unbox any
other null throws. -/
def put : (f : Field) → Value F f → Except Failure (Option (PrefValue F))
  | .text _, v => .ok (v.map .string)
  | .float _, some x => .ok (some (.float x))
  | .float _, none => .error .nullPointerException
  | .int _, i => .ok (some (.int i))
  | .subscription, some b => .ok (some (.boolean b))
  | .subscription, none => .error .nullPointerException

/-- The statements of `saveData`, one for each field. A getter keeps in the field what it returns. -/
def saveFields (s : Store F D) : List (Text × Field) → Store F D × Option Failure
  | [] => (s, none)
  | (key, f) :: rest =>
      let v := getter f (s.account.field f)
      let account := { s.account with field := Function.update s.account.field f v }
      match put f v with
      | .error e => ({ s with account := account }, some e)
      | .ok pref => saveFields ⟨account, Function.update s.prefs key pref⟩ rest

/-- The last two statements of `saveData`. -/
def savePosition (s : Store F D) : Store F D × Option Failure :=
  let lat := s.account.lat.getD P.zero
  let s' : Store F D :=
    ⟨{ s.account with lat := some lat },
      Function.update s.prefs "lat".toList (some (.string (P.printDouble lat)))⟩
  match s.account.lng with
  | none => (s', some .nullPointerException)
  | some lng =>
      ({ s' with prefs :=
          Function.update s'.prefs "lng".toList (some (.string (P.printDouble lng))) }, none)

def saveData (s : Store F D) : Store F D × Option Failure :=
  match saveFields s savedFields with
  | (s', none) => savePosition P s'
  | r => r

/-- How a call of `authorize` ends. -/
inductive Ended where
  | returned (b : Bool)
  | thrown (e : Failure)
  deriving DecidableEq, Repr

/-- The statements of `authorize` from the fields on, with the exception that ends them. -/
def setFields (o : JsonObject D) (a : ∀ f, Value F f) : (∀ f, Value F f) × Option Failure :=
  run (fun a c => c.eval P o a) a authorizeClauses

/-- A `JSONException` is caught; the fields that are set by then stay set. -/
def authorize (s : Store F D) (authObj : JsonObject D) : Ended × Store F D :=
  match authObj.getJSONObject "data".toList with
  | none => (.returned false, s)
  | some accountObj =>
      match setFields P accountObj s.account.field with
      | (field, some .jsonException) => (.returned false, s.withFields field)
      | (field, some .nullPointerException) => (.thrown .nullPointerException, s.withFields field)
      | (field, none) =>
          match saveData P (s.withFields field) with
          | (saved, none) => (.returned true, saved)
          | (saved, some e) => (.thrown e, saved)

/-- A read of the preferences; the error is a `ClassCastException`. -/
def ReadEntry.eval (prefs : Prefs F) : ReadEntry → Except Unit (Option (Assignment (Value F)))
  | .text f key default =>
      match prefs key with
      | none => .ok (some ⟨.text f, some default⟩)
      | some (.string t) => .ok (some ⟨.text f, some t⟩)
      | some _ => .error ()
  | .price p key =>
      match prefs key with
      | none => .ok (some ⟨.float (.sku_price p), some P.float_def⟩)
      | some (.float x) => .ok (some ⟨.float (.sku_price p), some x⟩)
      | some _ => .error ()
  | .int f key default =>
      match prefs key with
      | none => .ok (some ⟨.int f, default⟩)
      | some (.int i) => .ok (some ⟨.int f, i⟩)
      | some _ => .error ()
  | .boolean key default =>
      match prefs key with
      | none => .ok (some ⟨.subscription, some default⟩)
      | some (.boolean b) => .ok (some ⟨.subscription, some b⟩)
      | some _ => .error ()

/-- `Double.parseDouble` of a preference. -/
def readDouble (prefs : Prefs F) (key : Text) : Option D :=
  match prefs key with
  | none => P.parseDouble "0.000000".toList
  | some (.string t) => P.parseDouble t
  | some _ => none

/-- The end of `readData`: the position is read when it is not known yet. -/
def readPosition (prefs : Prefs F) (a : Account F D) : Option (Account F D) :=
  let lat := a.lat.getD P.zero
  if P.isZero lat then
    match a.lng with
    | none => none
    | some lng =>
        if P.isZero lng then do
          let lat ← readDouble P prefs "lat".toList
          let lng ← readDouble P prefs "lng".toList
          some { a with lat := some lat, lng := some lng }
        else some { a with lat := some lat }
  else some { a with lat := some lat }

/-- `readData`; `none` is an exception, which ends the process. -/
def readData (prefs : Prefs F) (a : Account F D) : Option (Account F D) :=
  match run (fun _ e => e.eval P prefs) a.field readEntries with
  | (field, none) => readPosition P prefs { a with field := field }
  | (_, some _) => none

end

/-- A platform whose numbers are their printed forms; nothing that is not finite is printed. -/
def Platform.printed : Platform Text Text where
  valueOf
    | .null => some "null".toList
    | .bool b => some (if b then "true".toList else "false".toList)
    | .int i => some (decimal i)
    | .long l => some (decimal l)
    | .double d => some d
    | _ => some []
  toString _ := some []
  parseDouble := some
  doubleOfInt i := decimal i ++ ".0".toList
  intValue d := (parseInt (d.takeWhile (· ≠ '.'))).getD 0
  toFloat := id
  printDouble := id
  float_def := "2.99".toList
  zero := "0.0".toList
  isZero d := d == "0.0".toList
  parse_print _ := rfl
  isZero_zero := by decide

end PortVpn.App
