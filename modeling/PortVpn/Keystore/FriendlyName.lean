import PortVpn.Lib.JavaText

/-!
# The e-mail address in the name of a certificate

A name has an attribute that Android does not know in hexadecimal digits, with the tag and the
length of the value in front of it. `getCertificateFriendlyName` takes the tag off and gives what
follows to `ia5decode`, which knows two lengths from a text of that many characters: an address is
shown as it is exactly if it has one of them (`getCertificateFriendlyName_email_iff`).
-/

set_option autoImplicit false

namespace PortVpn.Keystore

open PortVpn.Lib

/-! ## Hexadecimal digits -/

/-- `Character.digit` for radix sixteen. -/
def hexDigit (c : Char) : Option Nat :=
  (digit c).or <|
    if 'a' ≤ c ∧ c ≤ 'f' then some (c.toNat - 'a'.toNat + 10)
    else if 'A' ≤ c ∧ c ≤ 'F' then some (c.toNat - 'A'.toNat + 10)
    else if 'ａ' ≤ c ∧ c ≤ 'ｆ' then some (c.toNat - 'ａ'.toNat + 10)
    else if 'Ａ' ≤ c ∧ c ≤ 'Ｆ' then some (c.toNat - 'Ａ'.toNat + 10)
    else none

/-- `Integer.parseInt(hexstr, 16)` for two characters; `none` for a `NumberFormatException`. -/
def parseHex (a b : Char) : Option Int :=
  if a = '-' then (hexDigit b).map fun n => -(n : Int)
  else if a = '+' then (hexDigit b).map fun n => (n : Int)
  else (hexDigit a).bind fun m => (hexDigit b).map fun n => 16 * m + n

/-- The cast `(char)`. -/
def toChar (n : Int) : Char := Char.ofNat (n % 2 ^ 16).toNat

/-- `X509Utils.isPrintableChar`, for a character that two digits can give: it is in one of the two
Latin blocks, or in the block of the specials. -/
def isPrintableChar (c : Char) : Bool :=
  !(c.toNat < 0x20 || 0x7F ≤ c.toNat && c.toNat < 0xA0) && c.toNat < 0xFFF0

/-- The loop of `ia5decode`, in its first round or a later one. -/
def ia5decodeFrom (first : Bool) : Text → Option Text
  | a :: b :: rest =>
      (parseHex a b).bind fun n =>
        let c := toChar n
        (ia5decodeFrom false rest).map fun d =>
          (if isPrintableChar c then [c]
           else if first && (c == '\x12' || c == '\x1b') then []
           else "\\x".toList ++ [a, b]) ++ d
  | _ => some []

/-- `X509Utils.ia5decode`. -/
def ia5decode (ia5string : Text) : Option Text := ia5decodeFrom true ia5string

/-- The type of an e-mail address, and the tag of its value. -/
def emailStart : Text := "1.2.840.113549.1.9.1=#16".toList

/-- `String.replace(target, "")`, with a number of characters still to be left out. -/
def removeAll (target : Text) : Nat → Text → Text
  | _, [] => []
  | k + 1, _ :: t => removeAll target k t
  | 0, c :: t =>
      if target.isPrefixOf (c :: t) then removeAll target (target.length - 1) t
      else c :: removeAll target 0 t

/-- One round of the loop over the parts of a name. -/
def decodePart (part : Text) : Option Text :=
  if emailStart.isPrefixOf part then
    (ia5decode (removeAll emailStart 0 part)).map ("email=".toList ++ ·)
  else some part

/-- What `getCertificateFriendlyName` makes of the name of a subject. -/
def getCertificateFriendlyName (friendlyName : Text) : Option Text :=
  ((split (· == ',') friendlyName).mapM decodePart).map [','].intercalate

/-! ## A value that has been written -/

/-- A byte in two digits. -/
def hexByte (n : Nat) : Text := [Nat.digitChar (n / 16), Nat.digitChar (n % 16)]

/-- The length and the characters of a value, as they follow the tag. -/
def hexValue (e : Text) : Text := hexByte e.length ++ e.flatMap fun c => hexByte c.toNat

/-- A text of ASCII characters whose length is written in one byte. -/
structure IA5 (e : Text) : Prop where
  ascii : ∀ c ∈ e, c.toNat < 128
  short : e.length < 128

theorem parseHex_hexByte : ∀ n < 256,
    parseHex (Nat.digitChar (n / 16)) (Nat.digitChar (n % 16)) = some (n : Int) := by
  decide +kernel

/-- What `ia5decode` writes for a byte: in the first round, two bytes are left out. -/
def shown (first : Bool) (n : Nat) : Text :=
  if isPrintableChar (Char.ofNat n) then [Char.ofNat n]
  else if first && (n == 0x12 || n == 0x1b) then []
  else "\\x".toList ++ hexByte n

theorem ia5decodeFrom_hexByte {first : Bool} {n : Nat} (hn : n < 128) (rest : Text) :
    ia5decodeFrom first (hexByte n ++ rest) =
      (ia5decodeFrom false rest).map (shown first n ++ ·) := by
  have hchar : ∀ n : Nat, n < 128 → toChar n = Char.ofNat n ∧
      (toChar n == '\x12' || toChar n == '\x1b') = (n == 0x12 || n == 0x1b) := by decide
  obtain ⟨hcast, hcode⟩ := hchar n hn
  rw [hexByte, List.cons_append, List.cons_append, List.nil_append, ia5decodeFrom,
    parseHex_hexByte n (by omega), Option.bind_some]
  dsimp only
  rw [hcode, hcast]
  rfl

/-- The decoded text is the length, as far as it is shown, and the characters one by one. -/
theorem ia5decode_hexValue {e : Text} (he : IA5 e) :
    ia5decode (hexValue e) = some (shown true e.length ++ e.flatMap fun c => shown false c.toNat) := by
  have hrest : ∀ e : Text, (∀ c ∈ e, c.toNat < 128) →
      ia5decodeFrom false (e.flatMap fun c => hexByte c.toNat) =
        some (e.flatMap fun c => shown false c.toNat) := by
    intro e
    induction e with
    | nil => exact fun _ => rfl
    | cons c e ih =>
        intro h
        obtain ⟨hc, he⟩ := List.forall_mem_cons.1 h
        rw [List.flatMap_cons, ia5decodeFrom_hexByte hc, ih he, List.flatMap_cons]
        rfl
  rw [ia5decode, hexValue, ia5decodeFrom_hexByte he.short, hrest e he.ascii]
  rfl

/-- No character is lost behind the length, and a character that cannot be shown takes four. -/
theorem shown_eq_iff {e : Text} (he : IA5 e) :
    (shown true e.length ++ e.flatMap fun c => shown false c.toNat) = e ↔
      (e.length = 18 ∨ e.length = 27) ∧ ∀ c ∈ e, isPrintableChar c := by
  have hone : ∀ c : Char, isPrintableChar c = true → shown false c.toNat = [c] := fun c hc => by
    rw [shown, Char.ofNat_toNat, if_pos hc]
  have hlen : ∀ n < 128, (shown true n = [] ↔ n = 18 ∨ n = 27) := by decide
  have hfour : ∀ n < 128, 1 ≤ (shown false n).length ∧
      (isPrintableChar (Char.ofNat n) = false → 2 ≤ (shown false n).length) := by decide
  have hrest : ∀ e : Text, (∀ c ∈ e, c.toNat < 128) →
      e.length ≤ (e.flatMap fun c => shown false c.toNat).length ∧
        ((e.flatMap fun c => shown false c.toNat).length ≤ e.length →
          ∀ c ∈ e, isPrintableChar c) := by
    intro e
    induction e with
    | nil => exact fun _ => ⟨Nat.le_refl 0, fun _ _ hc => nomatch hc⟩
    | cons c e ih =>
        intro h
        obtain ⟨hc, he⟩ := List.forall_mem_cons.1 h
        obtain ⟨hle, hall⟩ := ih he
        obtain ⟨hpos, hmore⟩ := hfour c.toNat hc
        rw [Char.ofNat_toNat] at hmore
        rw [List.flatMap_cons, List.length_append, List.length_cons]
        refine ⟨by omega, fun hshort => List.forall_mem_cons.2 ⟨?_, hall (by omega)⟩⟩
        by_contra hprintable
        have := hmore (Bool.eq_false_iff.2 hprintable)
        omega
  obtain ⟨hle, hall⟩ := hrest e he.ascii
  constructor
  · intro h
    have hlength := congrArg List.length h
    rw [List.length_append] at hlength
    have hnil : shown true e.length = [] := List.eq_nil_of_length_eq_zero (by omega)
    exact ⟨(hlen _ he.short).1 hnil, hall (by omega)⟩
  · rintro ⟨hlength, hprintable⟩
    rw [(hlen _ he.short).2 hlength, List.nil_append]
    conv_rhs => rw [← List.flatMap_singleton' e]
    exact List.flatMap_congr fun c hc => hone c (hprintable c hc)

/-! ## A name with an address -/

/-- The part of a name with an e-mail address. -/
def emailPart (e : Text) : Text := emailStart ++ hexValue e

theorem removeAll_of_notMem {target : Text} {c : Char} (hc : c ∈ target) {t : Text} (ht : c ∉ t) :
    removeAll target 0 t = t := by
  induction t with
  | nil => rfl
  | cons d t ih =>
      have hstart : target.isPrefixOf (d :: t) = false := by
        rw [← Bool.not_eq_true, List.isPrefixOf_iff_prefix]
        exact fun h => ht (h.subset hc)
      rw [removeAll, if_neg (by rw [hstart]; exact Bool.false_ne_true),
        ih fun h => ht (List.mem_cons_of_mem d h)]

theorem removeAll_skip (target a t : Text) :
    removeAll target a.length (a ++ t) = removeAll target 0 t := by
  induction a with
  | nil => rfl
  | cons c a ih => exact ih

theorem removeAll_prefix {target : Text} (hne : target ≠ []) (t : Text) :
    removeAll target 0 (target ++ t) = removeAll target 0 t := by
  obtain ⟨c, a, rfl⟩ := List.exists_cons_of_ne_nil hne
  rw [List.cons_append, removeAll, if_pos]
  · exact removeAll_skip (c :: a) a t
  · rw [List.isPrefixOf_iff_prefix]
    exact List.prefix_append (c :: a) t

theorem mem_hexByte : ∀ n < 128, '=' ∉ hexByte n ∧ ',' ∉ hexByte n := by decide

theorem mem_hexValue {e : Text} (he : IA5 e) : '=' ∉ hexValue e ∧ ',' ∉ hexValue e := by
  have hlen := mem_hexByte e.length he.short
  have hall := fun c hc => mem_hexByte (Char.toNat c) (he.ascii c hc)
  simp only [hexValue, List.mem_append, List.mem_flatMap, not_or, not_exists, not_and]
  exact ⟨⟨hlen.1, fun c hc => (hall c hc).1⟩, hlen.2, fun c hc => (hall c hc).2⟩

theorem decodePart_emailPart {e : Text} (he : IA5 e) :
    decodePart (emailPart e) = some ("email=".toList ++
      (shown true e.length ++ e.flatMap fun c => shown false c.toNat)) := by
  have hstart : emailStart.isPrefixOf (emailPart e) = true :=
    List.isPrefixOf_iff_prefix.2 (List.prefix_append _ _)
  rw [decodePart, if_pos hstart, emailPart, removeAll_prefix (by decide),
    removeAll_of_notMem (c := '=') (by decide) (mem_hexValue he).1, ia5decode_hexValue he]
  rfl

/-- The parts of a name, if the last one is not empty. -/
theorem split_intercalate {parts : List Text} {last : Text}
    (hcomma : ∀ part ∈ parts ++ [last], ',' ∉ part) (hlast : last ≠ []) :
    split (· == ',') ([','].intercalate (parts ++ [last])) = parts ++ [last] := by
  have hcut : ([','].intercalate (parts ++ [last])).splitOnP (· == ',') = parts ++ [last] :=
    List.splitOn_intercalate ',' hcomma (by simp)
  have hdrop : ((parts ++ [last]).reverse.dropWhile List.isEmpty).reverse = parts ++ [last] := by
    rw [List.reverse_append, List.reverse_singleton, List.singleton_append,
      List.dropWhile_cons_of_neg (by simpa using hlast), List.reverse_cons, List.reverse_reverse]
  rw [split]
  split
  · rw [hcut, hdrop]
  · rename_i hnone
    rw [List.splitOnP_eq_singleton fun c hc => by
      rw [List.any_eq_true, not_exists] at hnone
      simpa using fun h => hnone c ⟨hc, h⟩] at hcut
    exact hcut

theorem intercalate_append_inj {before after : List Text} {a b : Text}
    (h : [','].intercalate (before ++ a :: after) = [','].intercalate (before ++ b :: after)) :
    a = b := by
  induction before with
  | nil =>
      cases after with
      | nil => simpa using h
      | cons c after =>
          simp only [List.nil_append, List.intercalate_cons_cons] at h
          exact List.append_cancel_right (List.append_cancel_right h)
  | cons p before ih =>
      refine ih ?_
      have hne : ∀ x : Text, before ++ x :: after ≠ [] := fun x => by simp
      rw [List.cons_append, List.cons_append, List.intercalate_cons_of_ne_nil (hne a),
        List.intercalate_cons_of_ne_nil (hne b)] at h
      exact List.append_cancel_left h

/-- **When an e-mail address is shown.** In every name with an address of ASCII characters whose
length takes one byte, the address is shown as it is exactly if it has eighteen or twenty-seven
characters, none of them a control character: the byte of the length, which stays behind the tag, is
left out for these lengths only. -/
theorem getCertificateFriendlyName_email_iff {before after : List Text} {e : Text} (he : IA5 e)
    (hcomma : ∀ part ∈ before ++ after, ',' ∉ part)
    (hother : ∀ part ∈ before ++ after, ¬ emailStart <+: part)
    (hlast : ∀ part ∈ after.getLast?, part ≠ []) :
    getCertificateFriendlyName ([','].intercalate (before ++ emailPart e :: after)) =
        some ([','].intercalate (before ++ ("email=".toList ++ e) :: after)) ↔
      (e.length = 18 ∨ e.length = 27) ∧ ∀ c ∈ e, isPrintableChar c := by
  have hemail : ',' ∉ emailPart e := by
    rw [emailPart, List.mem_append, not_or]
    exact ⟨by decide, (mem_hexValue he).2⟩
  have hparts : split (· == ',') ([','].intercalate (before ++ emailPart e :: after)) =
      before ++ emailPart e :: after := by
    have hall : ∀ part ∈ before ++ emailPart e :: after, ',' ∉ part := by
      intro part hpart
      rcases List.mem_append.1 hpart with h | h
      · exact hcomma part (List.mem_append_left _ h)
      · rcases List.mem_cons.1 h with rfl | h
        · exact hemail
        · exact hcomma part (List.mem_append_right _ h)
    rcases List.eq_nil_or_concat' after with rfl | ⟨init, last, rfl⟩
    · exact split_intercalate hall (List.append_ne_nil_of_left_ne_nil (by decide) _)
    · rw [← List.cons_append, ← List.append_assoc] at hall ⊢
      exact split_intercalate hall (hlast last (by simp))
  have hkeep : ∀ parts : List Text, (∀ part ∈ parts, ¬ emailStart <+: part) →
      parts.mapM decodePart = some parts := by
    intro parts
    induction parts with
    | nil => exact fun _ => rfl
    | cons part parts ih =>
        intro h
        obtain ⟨hpart, hparts⟩ := List.forall_mem_cons.1 h
        have hsame : decodePart part = some part := by
          rw [decodePart, if_neg fun hp => hpart (List.isPrefixOf_iff_prefix.1 hp)]
        rw [List.mapM_cons, hsame, ih hparts]
        rfl
  have hname : getCertificateFriendlyName ([','].intercalate (before ++ emailPart e :: after)) =
      some ([','].intercalate (before ++ ("email=".toList ++
        (shown true e.length ++ e.flatMap fun c => shown false c.toNat)) :: after)) := by
    rw [getCertificateFriendlyName, hparts, List.mapM_append,
      hkeep before fun part hp => hother part (List.mem_append_left _ hp), List.mapM_cons,
      decodePart_emailPart he, hkeep after fun part hp => hother part (List.mem_append_right _ hp)]
    rfl
  rw [hname, Option.some.injEq, ← shown_eq_iff he]
  constructor
  · exact fun h => List.append_cancel_left (intercalate_append_inj h)
  · intro h
    rw [h]

/-- An address of eighteen characters behind another part of a name, and one of nineteen. -/
theorem getCertificateFriendlyName_email_lengths :
    getCertificateFriendlyName ([','].intercalate
        (["CN=a".toList] ++ emailPart "someone@an.example".toList :: [])) =
      some "CN=a,email=someone@an.example".toList ∧
    getCertificateFriendlyName ([','].intercalate
        (["CN=a".toList] ++ emailPart "someone@the.example".toList :: [])) ≠
      some "CN=a,email=someone@the.example".toList := by
  constructor
  · exact (getCertificateFriendlyName_email_iff ⟨by decide, by decide⟩ (by decide) (by decide)
      (by decide)).2 (by decide)
  · exact mt (@getCertificateFriendlyName_email_iff ["CN=a".toList] [] "someone@the.example".toList
      ⟨by decide, by decide⟩ (by decide) (by decide) (by decide)).1 (by decide)

end PortVpn.Keystore
