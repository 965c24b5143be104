import Mathlib.Algebra.Order.Ring.Int
import Mathlib.Data.List.Basic
import Mathlib.Data.List.TakeWhile

/-!
# Texts

A Java string is the list of its characters. The operations keep Java's definitions; what each of
them does to a text is stated beside it.
-/

set_option autoImplicit false

namespace PortVpn.Lib

abbrev Text := List Char

/-- A property of the characters of a text is decided along the text, and not for every character
there is. -/
instance (priority := high) decidableForallChar {p : Char → Prop} [DecidablePred p] {t : Text} :
    Decidable (∀ c ∈ t, p c) := List.decidableBAll p t

/-- `Character.isWhitespace`: the Unicode space, line and paragraph separators other than the
non-breaking spaces, the tabulator, the line terminators and the four information separators. -/
def isWhitespace (c : Char) : Bool :=
  let n := c.toNat
  (9 ≤ n && n ≤ 13) || (28 ≤ n && n ≤ 32) || n == 0x1680 || (0x2000 ≤ n && n ≤ 0x2006) ||
    (0x2008 ≤ n && n ≤ 0x200A) || n == 0x2028 || n == 0x2029 || n == 0x205F || n == 0x3000

/-- The number of `char` values of a character: those outside the basic multilingual plane take
two. -/
def charCount (c : Char) : Nat := if c.toNat < 0x10000 then 1 else 2

/-- `String.length`. -/
def javaLength (t : Text) : Nat := (t.map charCount).sum

/-- `String.substring` from an index within the text. When it falls between the two values of a
character, the second one is left, which has no meaning alone. -/
def substring : Nat → Text → Text
  | 0, t => t
  | _ + 1, [] => []
  | n + 1, c :: t =>
      if charCount c = 1 then substring n t
      else match n with
        | 0 => '\uFFFD' :: t
        | n + 1 => substring n t

/-- `String.split` at the characters that satisfy `p`: a text without any of them is its own only
part, and empty parts at the end are removed. -/
def split (p : Char → Bool) (t : Text) : List Text :=
  if t.any p then ((t.splitOnP p).reverse.dropWhile List.isEmpty).reverse else [t]

/-- The zeros of the blocks of ten decimal digits in the basic multilingual plane. -/
def decimalZeros : List Nat :=
  [0x30, 0x660, 0x6F0, 0x7C0, 0x966, 0x9E6, 0xA66, 0xAE6, 0xB66, 0xBE6, 0xC66, 0xCE6, 0xD66, 0xDE6,
   0xE50, 0xED0, 0xF20, 0x1040, 0x1090, 0x17E0, 0x1810, 0x1946, 0x19D0, 0x1A80, 0x1A90, 0x1B50,
   0x1BB0, 0x1C40, 0x1C50, 0xA620, 0xA8D0, 0xA900, 0xA9D0, 0xA9F0, 0xAA50, 0xABF0, 0xFF10]

/-- `Character.digit` for radix ten. -/
def digit (c : Char) : Option Nat :=
  (decimalZeros.find? fun z => z ≤ c.toNat && c.toNat < z + 10).map fun z => c.toNat - z

/-- The value of a non-empty row of digits. -/
def parseDigits : Text → Option Nat
  | [] => none
  | t => t.foldlM (fun n c => (digit c).map (10 * n + ·)) 0

/-- `parseInt` and `parseLong`: one sign, digits, and a value between the bounds; `none` for a
`NumberFormatException`. -/
def parseSigned (low high : Int) (t : Text) : Option Int := do
  let n ← match t with
    | '-' :: ds => (parseDigits ds).map fun n => -(n : Int)
    | '+' :: ds => (parseDigits ds).map Int.ofNat
    | ds => (parseDigits ds).map Int.ofNat
  if low ≤ n ∧ n ≤ high then some n else none

/-- `Integer.parseInt`. -/
def parseInt : Text → Option Int := parseSigned (-2 ^ 31) (2 ^ 31 - 1)

/-- `Long.parseLong`. -/
def parseLong : Text → Option Int := parseSigned (-2 ^ 63) (2 ^ 63 - 1)

/-- `%d` of a format. -/
def decimal : Int → Text
  | .ofNat n => Nat.toDigits 10 n
  | .negSucc n => '-' :: Nat.toDigits 10 (n + 1)

/-- A locale, by the character that a format writes for zero; the other digits follow it. -/
structure LocaleDigits where
  zeroDigit : Char
  isZero : zeroDigit.toNat ∈ decimalZeros
  deriving DecidableEq, Repr

namespace LocaleDigits

/-- `Locale.US`. -/
def us : LocaleDigits := ⟨'0', by decide⟩

/-- A digit as the locale writes it. -/
def localize (l : LocaleDigits) (c : Char) : Char :=
  if c.isDigit then Char.ofNat (l.zeroDigit.toNat + (c.toNat - '0'.toNat)) else c

/-- `%d` of a format in the locale: the sign is the same everywhere. -/
def decimal (l : LocaleDigits) (z : Int) : Text := (Lib.decimal z).map l.localize

end LocaleDigits

/-- `String.replace` for a target of one character. -/
def replaceChar (target : Char) (replacement t : Text) : Text :=
  t.flatMap fun c => if c = target then replacement else [c]

/-- `String.trim`: characters up to the blank are removed at both ends. -/
def trim (t : Text) : Text :=
  ((t.dropWhile (· ≤ ' ')).reverse.dropWhile (· ≤ ' ')).reverse

/-- What follows the first occurrence of a target that is not empty. -/
def afterFirst (target : Text) : Text → Option Text
  | [] => none
  | c :: t =>
      if target.isPrefixOf (c :: t) then some ((c :: t).drop target.length) else afterFirst target t

/-- The loop of `BufferedReader.readLine` over the characters that are left: a line feed after a
carriage return is skipped, and the last line needs no end. -/
def readLinesFrom (skipLF : Bool) (line : Text) : Text → List Text
  | [] => if line = [] then [] else [line]
  | c :: t =>
      if skipLF && c == '\n' then readLinesFrom false line t
      else if c == '\n' || c == '\r' then line :: readLinesFrom (c == '\r') [] t
      else readLinesFrom false (line ++ [c]) t

/-- The lines that a `BufferedReader` gives. -/
def readLines (t : Text) : List Text := readLinesFrom false [] t

example : readLines "a\r\n\nb\rc".toList = ["a".toList, [], "b".toList, "c".toList] := by decide

/-- A text without the characters that end a line. -/
def Unbroken (t : Text) : Prop := '\n' ∉ t ∧ '\r' ∉ t

instance : DecidablePred Unbroken := fun t => by
  rw [Unbroken]
  infer_instance

theorem Unbroken.append {s t : Text} (hs : Unbroken s) (ht : Unbroken t) : Unbroken (s ++ t) := by
  simp only [Unbroken, List.mem_append, not_or]
  exact ⟨⟨hs.1, ht.1⟩, hs.2, ht.2⟩

theorem unbroken_of_mem_readLinesFrom {skipLF : Bool} {line t : Text} (hl : Unbroken line) :
    ∀ l ∈ readLinesFrom skipLF line t, Unbroken l := by
  induction t generalizing skipLF line with
  | nil =>
      intro l h
      simp only [readLinesFrom] at h
      split at h
      · simp at h
      · simp_all
  | cons c t ih =>
      intro l h
      simp only [readLinesFrom] at h
      split at h
      · exact ih hl l h
      · split at h
        · rcases List.mem_cons.1 h with rfl | h
          · exact hl
          · exact ih (by simp [Unbroken]) l h
        · refine ih ?_ l h
          rename_i hc
          simp only [Bool.or_eq_true, beq_iff_eq, not_or] at hc
          simp only [Unbroken, List.mem_append, List.mem_singleton, not_or]
          exact ⟨⟨hl.1, fun h => hc.1 h.symm⟩, hl.2, fun h => hc.2 h.symm⟩

/-- No line that is read contains the end of a line. -/
theorem unbroken_of_mem_readLines {t l : Text} (h : l ∈ readLines t) : Unbroken l :=
  unbroken_of_mem_readLinesFrom (by simp [Unbroken]) l h

/-- Whole lines are read before what follows them. -/
theorem readLinesFrom_append {before : Text} (h : before.getLast? = some '\n') {skipLF : Bool}
    {line : Text} (hskip : skipLF = true → line = []) (t : Text) :
    readLinesFrom skipLF line (before ++ t) = readLinesFrom skipLF line before ++ readLines t := by
  induction before generalizing skipLF line with
  | nil => exact nomatch h
  | cons c before ih =>
      rw [List.cons_append, readLinesFrom, readLinesFrom]
      cases before with
      | nil =>
          obtain rfl : c = '\n' := by simpa using h
          cases skipLF with
          | true => simp [readLinesFrom, readLines, hskip rfl]
          | false => simp [readLinesFrom, readLines]
      | cons d before =>
          have h : (d :: before).getLast? = some '\n' := by simpa [List.getLast?_cons_cons] using h
          split
          · rename_i hs
            exact ih h (by simp)
          · split
            · rw [ih h (by simp), List.cons_append]
            · exact ih h (by simp)

theorem readLines_append {before : Text} (h : before = [] ∨ before.getLast? = some '\n')
    (t : Text) : readLines (before ++ t) = readLines before ++ readLines t := by
  rcases h with rfl | h
  · rfl
  · exact readLinesFrom_append h (by simp) t

theorem readLinesFrom_unbroken {l : Text} (h : Unbroken l) (line t : Text) :
    readLinesFrom false line (l ++ '\n' :: t) = (line ++ l) :: readLines t := by
  induction l generalizing line with
  | nil => simp [readLinesFrom, readLines]
  | cons c l ih =>
      have hn : c ≠ '\n' := fun he => h.1 (he ▸ List.mem_cons_self)
      have hr : c ≠ '\r' := fun he => h.2 (he ▸ List.mem_cons_self)
      have hl : Unbroken l :=
        ⟨fun hm => h.1 (List.mem_cons_of_mem _ hm), fun hm => h.2 (List.mem_cons_of_mem _ hm)⟩
      rw [List.cons_append, readLinesFrom]
      simp only [Bool.false_and, Bool.false_eq_true, if_false, beq_iff_eq, hn, hr, Bool.or_eq_true,
        or_self]
      rw [ih hl, List.append_assoc, List.singleton_append]

/-- A line is read as it was written. -/
theorem readLines_line {l : Text} (h : Unbroken l) (t : Text) :
    readLines (l ++ '\n' :: t) = l :: readLines t :=
  readLinesFrom_unbroken h [] t

/-- Whole lines are read as they were written, before what follows them. -/
theorem readLines_lines {lines : List Text} (h : ∀ l ∈ lines, Unbroken l) (t : Text) :
    readLines (lines.flatMap (· ++ ['\n']) ++ t) = lines ++ readLines t := by
  induction lines with
  | nil => rfl
  | cons l lines ih =>
      obtain ⟨hl, hlines⟩ := List.forall_mem_cons.1 h
      have hcons : (l :: lines).flatMap (· ++ ['\n']) ++ t =
          l ++ '\n' :: (lines.flatMap (· ++ ['\n']) ++ t) := by
        simp [List.append_assoc]
      rw [hcons, readLines_line hl, ih hlines, List.cons_append]

/-! ## Trimming -/

theorem mem_of_mem_trim {t : Text} {c : Char} (h : c ∈ trim t) : c ∈ t := by
  rw [trim] at h
  have h := (List.dropWhile_sublist _).mem (List.mem_reverse.1 h)
  exact (List.dropWhile_sublist _).mem (List.mem_reverse.1 h)

theorem Unbroken.trim {t : Text} (h : Unbroken t) : Unbroken (trim t) :=
  ⟨fun hm => h.1 (mem_of_mem_trim hm), fun hm => h.2 (mem_of_mem_trim hm)⟩

/-- A text that neither begins nor ends with a blank is left alone. -/
theorem trim_eq_self {t : Text} (hhead : ∀ c ∈ t.head?, ¬ c ≤ ' ')
    (hlast : ∀ c ∈ t.getLast?, ¬ c ≤ ' ') : trim t = t := by
  have hdrop : ∀ u : Text, (∀ c ∈ u.head?, ¬ c ≤ ' ') → u.dropWhile (· ≤ ' ') = u := by
    intro u hu
    cases u with
    | nil => rfl
    | cons c u => exact List.dropWhile_cons_of_neg (by simpa using hu c rfl)
  rw [trim, hdrop t hhead, hdrop t.reverse, List.reverse_reverse]
  rwa [List.head?_reverse]

/-- The ends of a text that has been trimmed. -/
theorem trim_ends (t : Text) :
    (∀ c ∈ (trim t).head?, ¬ c ≤ ' ') ∧ ∀ c ∈ (trim t).getLast?, ¬ c ≤ ' ' := by
  have hhead : ∀ u : Text, ∀ c ∈ (u.dropWhile (· ≤ ' ')).head?, ¬ c ≤ ' ' := by
    intro u c hc
    have hne : u.dropWhile (· ≤ ' ') ≠ [] := by
      rintro hnil
      rw [hnil] at hc
      exact nomatch hc
    have hnot := List.head_dropWhile_not (fun c => decide (c ≤ ' ')) hne
    rw [List.head?_eq_some_head hne] at hc
    rw [← Option.some.inj hc]
    simpa using hnot
  refine ⟨fun c hc => ?_, fun c hc => ?_⟩
  · -- what is left at the end is a beginning of what is left at the front
    rw [trim, List.head?_reverse] at hc
    have hsuffix : ((t.dropWhile (· ≤ ' ')).reverse.dropWhile (· ≤ ' ')) <:+
        (t.dropWhile (· ≤ ' ')).reverse := List.dropWhile_suffix _
    obtain ⟨pre, hpre⟩ := hsuffix
    refine hhead t c ?_
    rw [← List.reverse_reverse (t.dropWhile (· ≤ ' ')), List.head?_reverse, ← hpre]
    rw [List.getLast?_append, hc]
    rfl
  · rw [trim, List.getLast?_reverse] at hc
    exact hhead _ c hc

theorem trim_trim (t : Text) : trim (trim t) = trim t := trim_eq_self (trim_ends t).1 (trim_ends t).2

theorem trim_blank_cons {c : Char} (h : c ≤ ' ') (t : Text) : trim (c :: t) = trim t := by
  rw [trim, trim, List.dropWhile_cons_of_pos (by simpa using h)]

/-! ## Splitting -/

/-- The parts that are not empty. -/
theorem filter_split (p : Char → Bool) (t : Text) :
    (split p t).filter (· ≠ []) = (t.splitOnP p).filter (· ≠ []) := by
  have hdrop : ∀ l : List Text, (l.dropWhile List.isEmpty).filter (· ≠ []) = l.filter (· ≠ []) := by
    intro l
    induction l with
    | nil => rfl
    | cons a l ih =>
        cases a with
        | nil => simpa [List.dropWhile_cons] using ih
        | cons c a => simp
  rw [split]
  split
  · rw [List.filter_reverse, hdrop, ← List.filter_reverse, List.reverse_reverse]
  · rename_i h
    rw [List.splitOnP_eq_singleton]
    simpa using h

/-- The first part ends at the first separator. -/
theorem head_split {p : Char → Bool} {t a : Text} {parts : List Text} (h : split p t = a :: parts) :
    a = t.takeWhile fun c => !p c := by
  rw [split] at h
  split at h
  next hany =>
    -- the first separator cuts the text, and what is dropped stands at the end
    have hcut : (t.dropWhile fun c => !p c) ≠ [] := by
      intro hnil
      obtain ⟨c, hc, hpc⟩ := List.any_eq_true.1 hany
      have hall := List.dropWhile_eq_nil_iff.1 hnil c hc
      simp [hpc] at hall
    obtain ⟨sep, rest, hrest⟩ := List.exists_cons_of_ne_nil hcut
    have hsep : p sep := by
      have := List.head_dropWhile_not (fun c => !p c) hcut
      simpa [hrest] using this
    have hsplit : t.splitOnP p = (t.takeWhile fun c => !p c) :: rest.splitOnP p := by
      conv_lhs => rw [← List.takeWhile_append_dropWhile (p := fun c => !p c) (l := t), hrest]
      rw [List.splitOnP_append_cons_of_forall_mem _ sep hsep]
      intro c hc
      simpa using List.mem_takeWhile_imp hc
    have hprefix : a :: parts <+: t.splitOnP p := by
      rw [← h, ← List.reverse_suffix, List.reverse_reverse]
      exact List.dropWhile_suffix _
    rw [hsplit, List.cons_prefix_cons] at hprefix
    exact hprefix.1
  next hany =>
    obtain ⟨rfl, rfl⟩ := List.cons.inj h
    symm
    apply List.takeWhile_eq_self_iff.2
    intro c hc
    simp only [List.any_eq_true, not_exists, not_and] at hany
    simpa using hany c hc

/-- A text with one separator before a last part that is not empty has two parts. -/
theorem split_two {p : Char → Bool} {a b : Text} {sep : Char} (ha : ∀ c ∈ a, p c = false)
    (hb : ∀ c ∈ b, p c = false) (hne : b ≠ []) (hsep : p sep) : split p (a ++ sep :: b) = [a, b] := by
  have hsplit : (a ++ sep :: b).splitOnP p = [a, b] := by
    rw [List.splitOnP_append_cons_of_forall_mem ha sep hsep, List.splitOnP_eq_singleton hb]
  rw [split, if_pos (by simp [hsep]), hsplit]
  obtain ⟨c, b, rfl⟩ := List.exists_cons_of_ne_nil hne
  rfl

/-- A text in four parts around separators, the last of them not empty. -/
theorem split_four {p : Char → Bool} {a b c d : Text} {sep : Char} (ha : ∀ x ∈ a, p x = false)
    (hb : ∀ x ∈ b, p x = false) (hc : ∀ x ∈ c, p x = false) (hd : ∀ x ∈ d, p x = false)
    (hne : d ≠ []) (hsep : p sep) :
    split p (a ++ sep :: (b ++ sep :: (c ++ sep :: d))) = [a, b, c, d] := by
  have hsplit : (a ++ sep :: (b ++ sep :: (c ++ sep :: d))).splitOnP p = [a, b, c, d] := by
    rw [List.splitOnP_append_cons_of_forall_mem ha sep hsep,
      List.splitOnP_append_cons_of_forall_mem hb sep hsep,
      List.splitOnP_append_cons_of_forall_mem hc sep hsep, List.splitOnP_eq_singleton hd]
  rw [split, if_pos (by simp [hsep]), hsplit]
  obtain ⟨x, d, rfl⟩ := List.exists_cons_of_ne_nil hne
  rfl

/-! ## Decimals -/

/-- A decimal digit is read as its value. -/
theorem digit_of_isDigit {c : Char} (h : c.isDigit) : digit c = some (c.toNat - '0'.toNat) := by
  have hc : 0x30 ≤ c.toNat ∧ c.toNat < 0x30 + 10 := by
    simp only [Char.isDigit, Bool.and_eq_true, decide_eq_true_eq] at h
    exact ⟨h.1, Nat.lt_succ_of_le h.2⟩
  rw [digit, decimalZeros, List.find?_cons_of_pos]
  · rfl
  · simpa using hc

theorem parseDigits_toDigits (n : Nat) : parseDigits (Nat.toDigits 10 n) = some n := by
  have hfold : ∀ (t : Text) (m : Nat), (∀ c ∈ t, c.isDigit) →
      t.foldlM (fun n c => (digit c).map (10 * n + ·)) m = some (Nat.ofDigitChars 10 t m) := by
    intro t
    induction t with
    | nil => intro m _; simp
    | cons c t ih =>
        intro m ht
        obtain ⟨hc, ht⟩ := List.forall_mem_cons.1 ht
        rw [List.foldlM_cons, digit_of_isDigit hc, Nat.ofDigitChars_cons]
        exact ih _ ht
  have hdigits : ∀ c ∈ Nat.toDigits 10 n, c.isDigit := fun c hc =>
    Nat.isDigit_of_mem_toDigits (by decide) (by decide) hc
  obtain ⟨c, t, ht⟩ := List.exists_cons_of_ne_nil (Nat.toDigits_ne_nil (n := n) (b := 10))
  have hparse : parseDigits (Nat.toDigits 10 n) =
      (Nat.toDigits 10 n).foldlM (fun n c => (digit c).map (10 * n + ·)) 0 := by
    rw [ht]
    rfl
  rw [hparse, hfold _ _ hdigits, Nat.ofDigitChars_ten_toDigits]

/-- **A decimal is read back**, unless it is out of the range. -/
theorem parseSigned_decimal_eq (low high z : Int) :
    parseSigned low high (decimal z) = if low ≤ z ∧ z ≤ high then some z else none := by
  cases z with
  | ofNat n =>
      have hdigits : ∀ c ∈ Nat.toDigits 10 n, c.isDigit := fun c hc =>
        Nat.isDigit_of_mem_toDigits (by decide) (by decide) hc
      have hparse := parseDigits_toDigits n
      obtain ⟨c, t, ht⟩ := List.exists_cons_of_ne_nil (Nat.toDigits_ne_nil (n := n) (b := 10))
      rw [ht] at hdigits hparse
      have hc := hdigits c List.mem_cons_self
      have hsign : ∀ s : Char, s.isDigit = false → ∀ ds, c :: t = s :: ds → False := by
        rintro s hs ds heq
        rw [(List.cons.inj heq).1, hs] at hc
        exact Bool.false_ne_true hc
      rw [decimal, ht, parseSigned, hparse]
      · rfl
      · exact hsign '-' (by decide)
      · exact hsign '+' (by decide)
  | negSucc n =>
      rw [decimal, parseSigned, parseDigits_toDigits]
      rfl

theorem parseSigned_decimal {low high z : Int} (hlow : low ≤ z) (hhigh : z ≤ high) :
    parseSigned low high (decimal z) = some z := by
  rw [parseSigned_decimal_eq, if_pos ⟨hlow, hhigh⟩]

/-! ## The digits of a locale -/

namespace LocaleDigits

/-- The ten digits from a zero on are read as their values. -/
theorem digit_ofNat {z n : Nat} (hz : z ∈ decimalZeros) (hn : n < 10) :
    (Char.ofNat (z + n)).toNat = z + n ∧ digit (Char.ofNat (z + n)) = some n := by
  have hall : ∀ z ∈ decimalZeros, ∀ n < 10,
      (Char.ofNat (z + n)).toNat = z + n ∧ digit (Char.ofNat (z + n)) = some n := by
    decide +kernel
  exact hall z hz n hn

variable (l : LocaleDigits)

theorem localize_of_isDigit {c : Char} (h : c.isDigit) :
    ∃ n < 10, c.toNat = '0'.toNat + n ∧ l.localize c = Char.ofNat (l.zeroDigit.toNat + n) := by
  have hc : '0'.toNat ≤ c.toNat ∧ c.toNat < '0'.toNat + 10 := by
    simp only [Char.isDigit, Bool.and_eq_true, decide_eq_true_eq] at h
    exact ⟨h.1, Nat.lt_succ_of_le h.2⟩
  refine ⟨c.toNat - '0'.toNat, by omega, by omega, ?_⟩
  rw [localize, if_pos h]

/-- A digit keeps its value. -/
theorem digit_localize (c : Char) : digit (l.localize c) = digit c := by
  by_cases h : c.isDigit
  · obtain ⟨n, hn, hc, hlocal⟩ := l.localize_of_isDigit h
    rw [hlocal, (digit_ofNat l.isZero hn).2, digit_of_isDigit h, hc, Nat.add_sub_cancel_left]
  · rw [localize, if_neg h]

/-- A character that is no digit is written by no digit. -/
theorem localize_eq_iff {c d : Char} (hd : digit d = none) : l.localize c = d ↔ c = d := by
  by_cases h : c.isDigit
  · have hsome : digit c ≠ none := by
      rw [digit_of_isDigit h]
      exact Option.some_ne_none _
    constructor
    · rintro rfl
      rw [digit_localize] at hd
      exact absurd hd hsome
    · rintro rfl
      exact absurd hd hsome
  · rw [localize, if_neg h]

theorem parseDigits_map (t : Text) : parseDigits (t.map l.localize) = parseDigits t := by
  have hfold : ∀ m : Nat, (t.map l.localize).foldlM (fun n c => (digit c).map (10 * n + ·)) m =
      t.foldlM (fun n c => (digit c).map (10 * n + ·)) m := by
    induction t with
    | nil => intro m; rfl
    | cons c t ih =>
        intro m
        rw [List.map_cons, List.foldlM_cons, List.foldlM_cons, digit_localize]
        simp only [ih]
  cases t with
  | nil => rfl
  | cons c t => exact hfold 0

/-- **The digits of every locale are read.** -/
theorem parseSigned_map (low high : Int) (t : Text) :
    parseSigned low high (t.map l.localize) = parseSigned low high t := by
  cases t with
  | nil => rfl
  | cons c t =>
      have hminus := l.localize_eq_iff (c := c) (show digit '-' = none by decide)
      have hplus := l.localize_eq_iff (c := c) (show digit '+' = none by decide)
      have hdigits := l.parseDigits_map (c :: t)
      rw [List.map_cons] at hdigits ⊢
      by_cases hm : c = '-'
      · rw [hminus.2 hm, hm, parseSigned, parseSigned, parseDigits_map]
      · by_cases hp : c = '+'
        · rw [hplus.2 hp, hp, parseSigned, parseSigned, parseDigits_map]
        · have hother : ∀ {d : Char} {ds : Text}, d ≠ '-' → d ≠ '+' →
              parseSigned low high (d :: ds) = (do
                let n ← (parseDigits (d :: ds)).map Int.ofNat
                if low ≤ n ∧ n ≤ high then some n else none) := by
            intro d ds hd hd'
            rw [parseSigned]
            · intro ds' heq
              exact hd (List.cons.inj heq).1
            · intro ds' heq
              exact hd' (List.cons.inj heq).1
          rw [hother (mt hminus.1 hm) (mt hplus.1 hp), hother hm hp, hdigits]

theorem parseSigned_decimal {low high z : Int} (hlow : low ≤ z) (hhigh : z ≤ high) :
    parseSigned low high (l.decimal z) = some z := by
  rw [decimal, parseSigned_map, Lib.parseSigned_decimal hlow hhigh]

theorem us_localize (c : Char) : us.localize c = c := by
  by_cases h : c.isDigit
  · obtain ⟨n, hn, hc, hlocal⟩ := us.localize_of_isDigit h
    rw [hlocal, us, ← hc, Char.ofNat_toNat]
  · rw [localize, if_neg h]

theorem us_decimal (z : Int) : us.decimal z = Lib.decimal z := by
  rw [decimal, List.map_congr_left fun c _ => us_localize c, List.map_id']

/-- A digit is written as itself by the digits from `0` on only. -/
theorem zeroDigit_of_localize {c : Char} (h : c.isDigit) (heq : l.localize c = c) :
    l.zeroDigit = '0' := by
  obtain ⟨n, hn, hc, hlocal⟩ := l.localize_of_isDigit h
  have hnat := (digit_ofNat l.isZero hn).1
  rw [← hlocal, heq, hc] at hnat
  exact Char.ext (UInt32.toNat_inj.1 (by
    show l.zeroDigit.toNat = '0'.toNat
    omega))

end LocaleDigits

end PortVpn.Lib
