import Mathlib.Data.Rat.Floor
import PortVpn.App.Account

/-!
# The two ways to pay

`BuyPremium` turns the number of a package into its id. On the card path, `ChargePaystack` gets the
id; it finds the price by comparing the id with texts of its own (`get_amount_new`) and the type by
comparing it with the ids of the account (`chargeFinished`). On the Google path, the id is
subscribed to, and the type is found by comparisons with the ids of the account (`go_process`).

A `Catalogue` is an account with the ids and the prices of all packages. Prices and rates are exact
numbers. The Google path sells every package (`googleSells_iff`); `cardSells_iff` says which ones
the card path sells at their price.
-/

set_option autoImplicit false

namespace PortVpn.App

open PortVpn.Lib

/-- The number of a package, which is also its type for the server. -/
def Package.number : Package → Int
  | .one => 1
  | .two => 2
  | .three => 3
  | .four => 4
  | .five => 5

/-- Types are printed as different texts. -/
theorem Package.decimal_number_inj {p q : Package} (h : decimal p.number = decimal q.number) :
    p = q := by
  cases p <;> cases q <;> first | rfl | exact absurd h (by decide)

/-- `Math.round`: halves go up, and a number that is not a `long` becomes the nearest one. -/
def mathRound (x : ℚ) : Int := max (-2 ^ 63) (min (2 ^ 63 - 1) ⌊x + 1 / 2⌋)

section

variable {D : Type} (a : Account ℚ D)

/-! ## The card path -/

/-- The id that `do_paystack` hands over. `Log.e` of null throws, here and below: `none`. -/
def do_paystack (i : Int) : Option Text :=
  match i with
  | 1 => a.getSku .one
  | 2 => a.getSku .two
  | 3 => a.getSku .three
  | 4 => a.getSku .four
  | _ => some "android.test.purchased".toList

/-- The price for an id; the last comparison that holds counts. To unbox null throws. -/
def get_amount_new (sku : Text) : Option ℚ :=
  let f := some 0
  let f := if sku = "one_month_premium_sku11".toList then a.getSku_price .one else f
  let f := if sku = "six_months_premium_sku2".toList then a.getSku_price .two else f
  let f := if sku = "1_year_premium_sku3".toList then a.getSku_price .three else f
  let f := if sku = "one_week_premium_sku4".toList then a.getSku_price .four else f
  if sku = "one_week_vip_sku5".toList then a.getSku_price .four else f

/-- A field of `ChargePaystack` that is never set. -/
def custom_amount : ℚ := 0

/-- The amount that the card is charged, if it is; `finalNGN` is `none` for the empty text. What the
rounded number is printed as is read as an `int` again, and the exception is caught. -/
def performCharge (SKU : Text) (finalNGN : Option ℚ) : Option Int :=
  match finalNGN with
  | none => none
  | some rate =>
      if SKU = "custom".toList then parseInt (decimal (mathRound (custom_amount * rate * 100)))
      else (get_amount_new a SKU).bind fun amount =>
        parseInt (decimal (mathRound (amount * rate * 100)))

/-- The comparisons of an id with those of the packages; the last one that holds counts. -/
def typeOf (packages : List Package) (sku : Text) : Int :=
  packages.foldl (fun type p => if a.getSku p = some sku then p.number else type) 1

/-- The parameters of `do_purchase` after a charge. -/
def chargeFinished (SKU : Text) : Option (List (Text × Text)) := do
  let token ← a.text .accessToken
  some [("token".toList, token),
    ("type".toList, decimal (typeOf a [.one, .two, .three, .four] SKU))]

/-! ## The Google path -/

/-- The id that `do_google` subscribes to. The price is unboxed and not used. -/
def do_google (i : Int) : Option Text :=
  let sku (p : Package) : Option Text := do
    let _ ← a.getSku_price p
    a.getSku p
  match i with
  | 1 => sku .one
  | 2 => sku .two
  | 3 => sku .three
  | 4 => sku .four
  | 5 => sku .five
  | _ => some "android.test.purchased".toList

/-- What Google reports about a purchase. -/
structure PurchaseInfo where
  purchaseToken : Text
  packageName : Text
  responseData : Text

/-- The parameters of `do_purchase` after a subscription. -/
def go_process (id : Text) (details : PurchaseInfo) : Option (List (Text × Text)) := do
  let token ← a.text .accessToken
  some [("sku".toList, id),
    ("package_name".toList, details.packageName),
    ("details".toList, details.responseData),
    ("purchase_token".toList, details.purchaseToken),
    ("token".toList, token),
    ("type".toList, decimal (typeOf a [.one, .two, .three, .four, .five] id))]

/-- The type that the server is told. -/
def reportedType (params : Option (List (Text × Text))) : Option Text :=
  params.bind (·.lookup "type".toList)

end

/-! ## Accounts that the server has filled -/

/-- An account with an id and a price for every package; the ids are distinct. -/
structure Catalogue (D : Type) where
  account : Account ℚ D
  id : Package → Text
  price : Package → ℚ
  getSku_eq : ∀ p, account.getSku p = some (id p)
  getSku_price_eq : ∀ p, account.getSku_price p = some (price p)
  distinct : Function.Injective id

/-- The amount for a price: what is to be paid, in hundredths, rounded. -/
def amountFor (price rate : ℚ) : Int := ⌊price * rate * 100 + 1 / 2⌋

section

variable {D : Type} (c : Catalogue D) (rate : ℚ) (p : Package)

/-- The card is charged the amount for the price of the package, and its type is reported. -/
def CardSells : Prop :=
  (do_paystack c.account p.number).bind (performCharge c.account · (some rate)) =
      some (amountFor (c.price p) rate) ∧
    reportedType ((do_paystack c.account p.number).bind (chargeFinished c.account)) =
      some (decimal p.number)

/-- The id of the package is subscribed to, and its type is reported. -/
def GoogleSells : Prop :=
  do_google c.account p.number = some (c.id p) ∧
    ∀ details, reportedType (go_process c.account (c.id p) details) = some (decimal p.number)

/-- The texts of `get_amount_new`, with the packages whose prices they stand for. -/
def literalSkus : List (Text × Package) :=
  [("one_month_premium_sku11".toList, .one),
    ("six_months_premium_sku2".toList, .two),
    ("1_year_premium_sku3".toList, .three),
    ("one_week_premium_sku4".toList, .four),
    ("one_week_vip_sku5".toList, .four)]

/-- The price that a text stands for; a text that is not listed stands for 0. -/
def Catalogue.literalPrice (sku : Text) : ℚ := (literalSkus.lookup sku).elim 0 c.price

/-! ## The amount -/

@[simp] theorem amountFor_zero : amountFor 0 rate = 0 := by
  rw [amountFor]
  norm_num

variable {c rate p}

/-- The comparisons with the texts find the price that the id stands for. -/
theorem get_amount_new_eq (sku : Text) :
    get_amount_new c.account sku = some (c.literalPrice sku) := by
  rw [get_amount_new, Catalogue.literalPrice]
  simp only [c.getSku_price_eq]
  by_cases h₁ : sku = "one_month_premium_sku11".toList
  · subst h₁
    rfl
  by_cases h₂ : sku = "six_months_premium_sku2".toList
  · subst h₂
    rfl
  by_cases h₃ : sku = "1_year_premium_sku3".toList
  · subst h₃
    rfl
  by_cases h₄ : sku = "one_week_premium_sku4".toList
  · subst h₄
    rfl
  by_cases h₅ : sku = "one_week_vip_sku5".toList
  · subst h₅
    rfl
  -- no comparison holds, and the table has no entry
  have hlookup : literalSkus.lookup sku = none := by
    rw [List.lookup_eq_none_iff]
    intro e he
    rw [bne_iff_ne]
    simp only [literalSkus, List.mem_cons, List.not_mem_nil, or_false] at he
    obtain rfl | rfl | rfl | rfl | rfl := he <;> assumption
  rw [if_neg h₅, if_neg h₄, if_neg h₃, if_neg h₂, if_neg h₁, hlookup]
  rfl

/-- What is rounded and printed is read back, unless it is not an `int`. -/
theorem parseInt_mathRound (price : ℚ) :
    parseInt (decimal (mathRound (price * rate * 100))) =
      if -2 ^ 31 ≤ amountFor price rate ∧ amountFor price rate ≤ 2 ^ 31 - 1 then
        some (amountFor price rate) else none := by
  rw [parseInt, parseSigned_decimal_eq, mathRound, amountFor]
  generalize ⌊price * rate * 100 + 1 / 2⌋ = amount
  split
  next h =>
    have hlong : max (-2 ^ 63) (min (2 ^ 63 - 1) amount) = amount := by omega
    rw [hlong] at h ⊢
    rw [if_pos h]
  next h =>
    rw [if_neg (by omega)]

/-- The card is charged the amount for the price that the id stands for. -/
theorem performCharge_eq (sku : Text) :
    performCharge c.account sku (some rate) =
      if -2 ^ 31 ≤ amountFor (c.literalPrice sku) rate ∧
          amountFor (c.literalPrice sku) rate ≤ 2 ^ 31 - 1 then
        some (amountFor (c.literalPrice sku) rate) else none := by
  rw [performCharge]
  split
  next h =>
    -- an own amount is 0, and so is the price of an id that is not listed
    have hcustom : c.literalPrice sku = custom_amount := by
      rw [h]
      rfl
    rw [hcustom, parseInt_mathRound]
  next h =>
    rw [get_amount_new_eq, Option.bind_some, parseInt_mathRound]

/-! ## The type -/

/-- Distinct ids are told apart, so the type of an id that is compared is its number. -/
theorem foldl_number (packages : List Package) (type : Int) :
    packages.foldl (fun type q => if c.account.getSku q = some (c.id p) then q.number else type)
      type = if p ∈ packages then p.number else type := by
  induction packages generalizing type with
  | nil => rfl
  | cons q packages ih =>
      rw [List.foldl_cons, ih, c.getSku_eq]
      by_cases hq : q = p
      · subst hq
        simp
      · have hid : some (c.id q) ≠ some (c.id p) := fun h => hq (c.distinct (Option.some.inj h))
        rw [if_neg hid]
        simp [Ne.symm hq]

theorem typeOf_id (packages : List Package) :
    typeOf c.account packages (c.id p) = if p ∈ packages then p.number else 1 :=
  foldl_number packages 1

/-- The type is 1 or the number of a package that is compared. -/
theorem typeOf_mem {D : Type} (a : Account ℚ D) (packages : List Package) (sku : Text) :
    typeOf a packages sku = 1 ∨ ∃ q ∈ packages, typeOf a packages sku = q.number := by
  have hfold : ∀ (packages : List Package) (type : Int),
      packages.foldl (fun type q => if a.getSku q = some sku then q.number else type) type =
          type ∨
        ∃ q ∈ packages,
          packages.foldl (fun type q => if a.getSku q = some sku then q.number else type) type =
            q.number := by
    intro packages
    induction packages with
    | nil => exact fun _ => Or.inl rfl
    | cons q packages ih =>
        intro type
        rw [List.foldl_cons]
        -- the type after the rest is what it was before, or that of a later package
        rcases ih (if a.getSku q = some sku then q.number else type) with h | ⟨r, hr, h⟩
        · rw [h]
          split
          · exact Or.inr ⟨q, List.mem_cons_self, rfl⟩
          · exact Or.inl rfl
        · exact Or.inr ⟨r, List.mem_cons_of_mem _ hr, h⟩
  exact hfold packages 1

theorem reportedType_chargeFinished (sku token : Text)
    (h : c.account.text .accessToken = some token) :
    reportedType (chargeFinished c.account sku) =
      some (decimal (typeOf c.account [.one, .two, .three, .four] sku)) := by
  rw [chargeFinished, h]
  rfl

/-! ## Both paths -/

/-- **The Google path sells every package**, once there is a token to report it with. -/
theorem googleSells_iff : GoogleSells c p ↔ (c.account.text .accessToken).isSome := by
  have hsku : do_google c.account p.number = some (c.id p) := by
    cases p <;> simp [do_google, Package.number, c.getSku_eq, c.getSku_price_eq]
  have hmem : p ∈ [Package.one, .two, .three, .four, .five] := by cases p <;> decide
  constructor
  · rintro ⟨-, h⟩
    cases htoken : c.account.text .accessToken with
    | some token => rfl
    | none =>
        have h := h ⟨[], [], []⟩
        rw [go_process, htoken] at h
        cases h
  · intro h
    obtain ⟨token, htoken⟩ := Option.isSome_iff_exists.1 h
    refine ⟨hsku, fun details => ?_⟩
    rw [go_process, htoken, typeOf_id, if_pos hmem]
    rfl

theorem do_paystack_number (hp : p ≠ .five) :
    do_paystack c.account p.number = some (c.id p) := by
  cases p with
  | five => exact absurd rfl hp
  | one => exact c.getSku_eq .one
  | two => exact c.getSku_eq .two
  | three => exact c.getSku_eq .three
  | four => exact c.getSku_eq .four

/-- The id of the last package is neither handed over nor compared, so its type is not reported. -/
theorem not_cardSells_five : ¬ CardSells c rate .five := by
  rintro ⟨-, h⟩
  have hsku : do_paystack c.account Package.five.number =
      some "android.test.purchased".toList := rfl
  rw [hsku, Option.bind_some] at h
  cases htoken : c.account.text .accessToken with
  | none =>
      rw [chargeFinished, htoken] at h
      cases h
  | some token =>
      rw [reportedType_chargeFinished _ token htoken] at h
      have h := Option.some.inj h
      rcases typeOf_mem c.account [.one, .two, .three, .four] "android.test.purchased".toList with
        hone | ⟨q, hq, htype⟩
      · rw [hone] at h
        exact absurd (Package.decimal_number_inj (p := .one) h) (by decide)
      · rw [htype] at h
        rw [Package.decimal_number_inj h] at hq
        exact absurd hq (by decide)

/-- **The card path** sells a package other than the last one exactly when the text that is its id
stands for a price with the same amount, and the amount is an `int`. -/
theorem cardSells_iff :
    CardSells c rate p ↔
      (c.account.text .accessToken).isSome ∧ p ≠ .five ∧
        (-2 ^ 31 ≤ amountFor (c.price p) rate ∧ amountFor (c.price p) rate ≤ 2 ^ 31 - 1) ∧
        amountFor (c.literalPrice (c.id p)) rate = amountFor (c.price p) rate := by
  constructor
  · intro h
    -- the type and the amount each give their part of the condition
    have hp : p ≠ .five := by
      rintro rfl
      exact not_cardSells_five h
    obtain ⟨hcharge, htype⟩ := h
    rw [do_paystack_number hp, Option.bind_some, performCharge_eq] at hcharge
    rw [do_paystack_number hp, Option.bind_some, chargeFinished] at htype
    have htoken : (c.account.text .accessToken).isSome := by
      cases htoken : c.account.text .accessToken with
      | some token => rfl
      | none =>
          rw [htoken] at htype
          cases htype
    split at hcharge
    next hrange =>
      have hamount := Option.some.inj hcharge
      rw [hamount] at hrange
      exact ⟨htoken, hp, hrange, hamount⟩
    next => cases hcharge
  · rintro ⟨htoken, hp, hrange, hamount⟩
    obtain ⟨token, htoken⟩ := Option.isSome_iff_exists.1 htoken
    -- the four packages that are compared with the id
    have hmem : p ∈ [Package.one, .two, .three, .four] := by
      cases p with
      | five => exact absurd rfl hp
      | one | two | three | four => decide
    rw [CardSells, do_paystack_number hp, Option.bind_some, Option.bind_some, performCharge_eq,
      hamount, if_pos hrange, reportedType_chargeFinished _ token htoken, typeOf_id, if_pos hmem]
    exact ⟨rfl, rfl⟩

variable (c rate p) in
/-- **Both paths sell the chosen package at its price** exactly when the card path does. -/
theorem sold_as_chosen_iff :
    CardSells c rate p ∧ GoogleSells c p ↔
      (c.account.text .accessToken).isSome ∧ p ≠ .five ∧
        (-2 ^ 31 ≤ amountFor (c.price p) rate ∧ amountFor (c.price p) rate ≤ 2 ^ 31 - 1) ∧
        amountFor (c.literalPrice (c.id p)) rate = amountFor (c.price p) rate := by
  rw [cardSells_iff, googleSells_iff]
  constructor
  · exact And.left
  · intro h
    exact ⟨h, h.1⟩

end

/-- An account whose ids are the texts of `get_amount_new`, in their order. -/
def shop : Catalogue Unit where
  account := {
    field
      | .text (.sku .one) => some "one_month_premium_sku11".toList
      | .text (.sku .two) => some "six_months_premium_sku2".toList
      | .text (.sku .three) => some "1_year_premium_sku3".toList
      | .text (.sku .four) => some "one_week_premium_sku4".toList
      | .text (.sku .five) => some "one_week_vip_sku5".toList
      | .text _ => some []
      | .float (.sku_price p) => some (p.number : ℚ)
      | .float .btc => none
      | .int _ => (0 : Int)
      | .subscription => none
    lat := none
    lng := none }
  id
    | .one => "one_month_premium_sku11".toList
    | .two => "six_months_premium_sku2".toList
    | .three => "1_year_premium_sku3".toList
    | .four => "one_week_premium_sku4".toList
    | .five => "one_week_vip_sku5".toList
  price p := p.number
  getSku_eq p := by cases p <;> rfl
  getSku_price_eq p := rfl
  distinct p q h := by cases p <;> cases q <;> first | rfl | exact absurd h (by decide)

/-- The last package costs 5, and the card is charged nothing; it is reported as the first one. -/
theorem five_charged_nothing :
    (do_paystack shop.account 5).bind (performCharge shop.account · (some 400)) = some 0 ∧
      reportedType ((do_paystack shop.account 5).bind (chargeFinished shop.account)) =
        some "1".toList ∧
      ¬ (CardSells shop 400 .five ∧ GoogleSells shop .five) := by
  refine ⟨by decide +kernel, by decide +kernel, ?_⟩
  rintro ⟨h, -⟩
  exact not_cardSells_five h

end PortVpn.App
