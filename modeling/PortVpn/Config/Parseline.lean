import PortVpn.Lib.JavaText

/-!
# Tokenising and escaping one line

`parseline` splits a line of a configuration into its arguments; `openVpnEscape` writes an argument
so that it is read as one. The section on reading follows `parseline` through an argument: between
arguments, bare, between single quotes.
-/

set_option autoImplicit false

namespace PortVpn.Config

open PortVpn.Lib

/-- `ConfigParser.ConfigParseError`, by its message. -/
structure ConfigParseError where
  message : Text
  deriving DecidableEq, Repr

/-- `ConfigParser.linestate`. -/
inductive Linestate where
  | initial
  | readinSingleQuote
  | readingQuoted
  | readingUnquoted
  | done
  deriving DecidableEq, Repr

/-- A zero byte also separates arguments. -/
def space (c : Char) : Bool := isWhitespace c || c == '\x00'

/-- The variables of `parseline`'s loop; `out` is zero when there is nothing to store. -/
structure Parse where
  parameters : List Text := []
  state : Linestate := .initial
  backslash : Bool := false
  out : Char := '\x00'
  currentarg : Text := []
  deriving DecidableEq, Repr

namespace Parse

/-- What a character means in the state of the loop; `none` for the start of a comment, which ends
the loop. -/
def interpret (s : Parse) (c : Char) : Option Parse :=
  match s.state with
  | .initial =>
      if space c then some s
      else if c == ';' || c == '#' then none
      else if !s.backslash && c == '"' then some { s with state := .readingQuoted }
      else if !s.backslash && c == '\'' then some { s with state := .readinSingleQuote }
      else some { s with out := c, state := .readingUnquoted }
  | .readingUnquoted =>
      if !s.backslash && space c then some { s with state := .done } else some { s with out := c }
  | .readingQuoted =>
      if !s.backslash && c == '"' then some { s with state := .done } else some { s with out := c }
  | .readinSingleQuote | .done =>
      if c == '\'' then some { s with state := .done } else some { s with out := c }

/-- An argument that is done joins the parameters. -/
def finish (s : Parse) : Parse :=
  if s.state = .done then
    { s with
      state := .initial
      parameters := s.parameters ++ [s.currentarg]
      currentarg := []
      out := '\x00' }
  else s

/-- Only a backslash, a double quote and white space may follow a backslash. -/
def badBackslash (s : Parse) : Bool :=
  s.backslash && s.out != '\x00' && !(s.out == '\\' || s.out == '"' || space s.out)

/-- Store the output character. -/
def store (s : Parse) : Parse :=
  if s.out != '\x00' then { s with currentarg := s.currentarg ++ [s.out] } else s

/-- A backslash that quotes the next character. -/
def quotes (s : Parse) (c : Char) : Bool :=
  !s.backslash && c == '\\' && s.state != .readinSingleQuote

end Parse

/-- The loop of `parseline` over the characters that are left. -/
def parselineLoop (s : Parse) : Text → Except ConfigParseError (List Text)
  | [] => .ok s.parameters
  | c :: cs =>
      if s.quotes c then parselineLoop { s with backslash := true }.store cs
      else match s.interpret c with
        | none => .ok s.parameters
        | some s =>
            let s := s.finish
            if s.badBackslash then
              .error ⟨"Options warning: Bad backslash ('\\') usage".toList⟩
            else parselineLoop { s with backslash := false }.store cs

/-- `ConfigParser.parseline`: the loop also takes a zero byte at the end of the line. A round takes a
code point, where the source takes a UTF-16 unit: what a backslash stores again is there the second
half of a character outside the basic plane. -/
def parseline (line : Text) : Except ConfigParseError (List Text) :=
  if line.length = 0 then .ok [] else parselineLoop {} (line ++ ['\x00'])

/-- The text that `openVpnEscape` compares with its argument and puts into quotes. -/
def escapedString (unescaped : Text) : Text :=
  replaceChar '\n' ['\\', 'n']
    (replaceChar '"' ['\\', '"'] (replaceChar '\\' ['\\', '\\'] unescaped))

/-- `VpnProfile.openVpnEscape`, for a string that is not null. -/
def openVpnEscape (unescaped : Text) : Text :=
  if escapedString unescaped = unescaped ∧ ' ' ∉ escapedString unescaped ∧
      '#' ∉ escapedString unescaped ∧ ';' ∉ escapedString unescaped ∧
      escapedString unescaped ≠ [] then unescaped
  else '"' :: escapedString unescaped ++ ['"']

/-- The line that `getOptionStrings` writes for one option, and the form of a password line. -/
def escapedLine (args : List Text) : Text :=
  args.flatMap fun arg => openVpnEscape arg ++ [' ']

/-- A string without a zero byte and without a line terminator. -/
def OneLine (arg : Text) : Prop := ∀ c ∈ arg, c ≠ '\x00' ∧ c ≠ '\n' ∧ c ≠ '\r'

/-! ## The loop, state by state -/

namespace Parse

/-- The state of the loop with parameters read before. -/
def after (ps : List Text) (s : Parse) : Parse := { s with parameters := ps ++ s.parameters }

variable (ps : List Text) (s : Parse) (c : Char)

@[simp] theorem after_quotes : (s.after ps).quotes c = s.quotes c := rfl

@[simp] theorem after_backslash (b : Bool) :
    { s.after ps with backslash := b } = ({ s with backslash := b } : Parse).after ps := rfl

@[simp] theorem after_badBackslash : (s.after ps).badBackslash = s.badBackslash := rfl

@[simp] theorem after_store : (s.after ps).store = s.store.after ps := by
  unfold store after
  split <;> rfl

@[simp] theorem after_finish : (s.after ps).finish = s.finish.after ps := by
  unfold finish after
  split <;> simp

@[simp] theorem after_interpret : (s.after ps).interpret c = (s.interpret c).map (after ps) := by
  cases hs : s.state with
  | initial | readingUnquoted | readingQuoted | readinSingleQuote | done =>
      simp only [interpret, after, hs, apply_ite (Option.map _), Option.map_some, Option.map_none]

@[simp] theorem finish_backslash : s.finish.backslash = s.backslash := by
  rw [finish]
  split <;> rfl

@[simp] theorem store_backslash : s.store.backslash = s.backslash := by
  rw [store]
  split <;> rfl

@[simp] theorem store_parameters : s.store.parameters = s.parameters := by
  rw [store]
  split <;> rfl

@[simp] theorem store_state : s.store.state = s.state := by
  rw [store]
  split <;> rfl

variable {s c} in
theorem interpret_backslash {s' : Parse} (h : s.interpret c = some s') :
    s'.backslash = s.backslash := by
  rw [interpret] at h
  split at h <;> split_ifs at h <;> cases h <;> rfl

end Parse

/-- What was read before does not influence what is read later. -/
theorem parselineLoop_after (ps : List Text) (t : Text) (s : Parse) :
    parselineLoop (s.after ps) t = (parselineLoop s t).map (ps ++ ·) := by
  induction t generalizing s with
  | nil => rfl
  | cons c t ih =>
      simp only [parselineLoop, Parse.after_quotes, Parse.after_interpret]
      split
      · simp only [Parse.after_backslash, Parse.after_store]
        exact ih _
      · cases s.interpret c with
        | none => rfl
        | some s' =>
            simp only [Option.map_some, Parse.after_finish, Parse.after_badBackslash,
              Parse.after_backslash, Parse.after_store]
            split
            · rfl
            · exact ih _

/-! ## Reading an argument -/

section Reading

variable {t : Text}

theorem parselineLoop_done (arg t : Text) :
    parselineLoop { parameters := [arg] } t = (parselineLoop {} t).map (arg :: ·) :=
  parselineLoop_after [arg] t {}

/-- White space between arguments is skipped. -/
theorem parselineLoop_space {c : Char} (hc : space c) (t : Text) :
    parselineLoop {} (c :: t) = parselineLoop {} t := by
  have hb : c ≠ '\\' := by rintro rfl; exact absurd hc (by decide)
  simp [parselineLoop, Parse.quotes, Parse.interpret, Parse.finish, Parse.badBackslash,
    Parse.store, hc, hb]

theorem parselineLoop_open_double (t : Text) :
    parselineLoop {} ('"' :: t) = parselineLoop { state := .readingQuoted } t := by
  have hq : space '"' = false := by decide
  simp [parselineLoop, Parse.quotes, Parse.interpret, Parse.finish, Parse.badBackslash,
    Parse.store, hq]

theorem parselineLoop_open_single (t : Text) :
    parselineLoop {} ('\'' :: t) = parselineLoop { state := .readinSingleQuote } t := by
  have hq : space '\'' = false := by decide
  simp [parselineLoop, Parse.quotes, Parse.interpret, Parse.finish, Parse.badBackslash,
    Parse.store, hq]

/-- A character that starts a bare argument. -/
def startsBare (c : Char) : Bool :=
  !space c && !(c == ';' || c == '#' || c == '"' || c == '\'' || c == '\\')

theorem parselineLoop_open_bare {c : Char} (hc : startsBare c) (t : Text) :
    parselineLoop {} (c :: t) =
      parselineLoop { state := .readingUnquoted, out := c, currentarg := [c] } t := by
  have h0 : c ≠ '\x00' := by rintro rfl; exact absurd hc (by decide)
  simp only [startsBare, Bool.and_eq_true, Bool.not_eq_true', Bool.or_eq_false_iff,
    beq_eq_false_iff_ne] at hc
  simp [parselineLoop, Parse.quotes, Parse.interpret, Parse.finish, Parse.badBackslash,
    Parse.store, hc, h0]

/-- A bare argument ends at the first white space. -/
theorem parselineLoop_bare {w : Text} (hw : ∀ c ∈ w, space c = false ∧ c ≠ '\\') {d : Char}
    (hd : space d) (out : Char) (cur t : Text) :
    parselineLoop { state := .readingUnquoted, out := out, currentarg := cur } (w ++ d :: t) =
      (parselineLoop {} t).map ((cur ++ w) :: ·) := by
  induction w generalizing out cur with
  | nil =>
      have hb : d ≠ '\\' := by rintro rfl; exact absurd hd (by decide)
      rw [List.append_nil, ← parselineLoop_done]
      simp [parselineLoop, Parse.quotes, Parse.interpret, Parse.finish, Parse.badBackslash,
        Parse.store, hd, hb]
  | cons c w ih =>
      obtain ⟨hs, hb⟩ := hw c List.mem_cons_self
      have h0 : c ≠ '\x00' := by rintro rfl; exact absurd hs (by decide)
      rw [List.append_cons cur c w, ← ih (fun d hd => hw d (List.mem_cons_of_mem _ hd)) c]
      simp [parselineLoop, Parse.quotes, Parse.interpret, Parse.finish, Parse.badBackslash,
        Parse.store, hs, hb, h0]

/-- A bare argument. -/
def Word : Text → Prop
  | [] => False
  | c :: w => startsBare c ∧ ∀ d ∈ w, space d = false ∧ d ≠ '\\'

instance : DecidablePred Word
  | [] => inferInstanceAs (Decidable False)
  | _ :: _ => inferInstanceAs (Decidable (_ ∧ _))

theorem parselineLoop_word {w : Text} (hw : Word w) {d : Char} (hd : space d) (t : Text) :
    parselineLoop {} (w ++ d :: t) = (parselineLoop {} t).map (w :: ·) := by
  match w, hw with
  | c :: w, ⟨hc, hw⟩ =>
      rw [List.cons_append, parselineLoop_open_bare hc, parselineLoop_bare hw hd]
      rfl

/-- Between single quotes every character stands for itself. -/
theorem parselineLoop_single {w : Text} (hw : '\'' ∉ w) (out : Char) (cur t : Text) :
    parselineLoop { state := .readinSingleQuote, out := out, currentarg := cur }
        (w ++ '\'' :: t) =
      (parselineLoop {} t).map ((cur ++ w.filter (· != '\x00')) :: ·) := by
  induction w generalizing out cur with
  | nil =>
      rw [List.filter_nil, List.append_nil, ← parselineLoop_done]
      simp [parselineLoop, Parse.quotes, Parse.interpret, Parse.finish, Parse.badBackslash,
        Parse.store]
  | cons c w ih =>
      obtain ⟨hq, hw⟩ := not_or.1 (mt List.mem_cons.2 hw)
      have hq : c ≠ '\'' := fun h => hq h.symm
      by_cases h0 : c = '\x00'
      · rw [List.filter_cons_of_neg (by simp [h0]), ← ih hw c cur]
        simp [parselineLoop, Parse.quotes, Parse.interpret, Parse.finish, Parse.badBackslash,
          Parse.store, h0]
      · rw [List.filter_cons_of_pos (by simp [h0]), List.append_cons cur c, ← ih hw c]
        simp [parselineLoop, Parse.quotes, Parse.interpret, Parse.finish, Parse.badBackslash,
          Parse.store, hq, h0]

/-- An argument whose single quote is never closed is dropped. -/
theorem parselineLoop_single_open {w : Text} (hw : '\'' ∉ w) (out : Char) (cur : Text) :
    parselineLoop { state := .readinSingleQuote, out := out, currentarg := cur } w = .ok [] := by
  induction w generalizing out cur with
  | nil => rfl
  | cons c w ih =>
      obtain ⟨hq, hw⟩ := not_or.1 (mt List.mem_cons.2 hw)
      have hq : c ≠ '\'' := fun h => hq h.symm
      by_cases h0 : c = '\x00'
      · rw [← ih hw c cur]
        simp [parselineLoop, Parse.quotes, Parse.interpret, Parse.finish, Parse.badBackslash,
          Parse.store, h0]
      · rw [← ih hw c (cur ++ [c])]
        simp [parselineLoop, Parse.quotes, Parse.interpret, Parse.finish, Parse.badBackslash,
          Parse.store, hq, h0]

/-- Every character but a backslash is taken by a round that may store it. -/
theorem parselineLoop_round {s : Parse} (hs : s.backslash = false) {c : Char} (hc : c ≠ '\\')
    (t : Text) :
    parselineLoop s (c :: t) = match s.interpret c with
      | none => .ok s.parameters
      | some s => parselineLoop s.finish.store t := by
  have hquotes : s.quotes c = false := by simp [Parse.quotes, hc]
  rw [parselineLoop, hquotes, if_neg Bool.false_ne_true]
  cases hi : s.interpret c with
  | none => rfl
  | some s' =>
      have hfalse : s'.finish.backslash = false := by
        rw [Parse.finish_backslash, Parse.interpret_backslash hi, hs]
      dsimp only
      rw [Parse.badBackslash, hfalse, Bool.false_and, Bool.false_and, if_neg Bool.false_ne_true]
      generalize s'.finish = s'' at hfalse
      obtain ⟨_, _, b, _, _⟩ := s''
      obtain rfl : b = false := hfalse
      rfl

/-- The zero byte at the end of a line does what a blank before it would do. -/
theorem parselineLoop_end {t : Text} (ht : ∀ c ∈ t, c ≠ '\\') {s : Parse}
    (hs : s.backslash = false) :
    parselineLoop s (t ++ ['\x00']) = parselineLoop s (t ++ [' ', '\x00']) := by
  induction t generalizing s with
  | nil =>
      have hzero : space '\x00' = true := by decide
      have hblank : space ' ' = true := by decide
      have hnil : ∀ s : Parse, parselineLoop s [] = .ok s.parameters := fun s => rfl
      -- an open quote at the end, as well as white space, leaves the arguments as they are
      have hends : ∀ s : Parse, s.backslash = false →
          s.state = .initial ∨ s.state = .readingQuoted ∨ s.state = .readinSingleQuote →
          parselineLoop s ['\x00'] = .ok s.parameters := by
        intro s hback hstate
        rw [parselineLoop_round hback (by decide), Parse.interpret]
        rcases hstate with hstate | hstate | hstate <;>
          simp [hstate, hzero, hnil, Parse.finish]
      rw [List.nil_append, List.nil_append, parselineLoop_round hs (by decide),
        parselineLoop_round hs (by decide)]
      cases hstate : s.state with
      | initial | readingUnquoted | readingQuoted | readinSingleQuote | done =>
          simp [Parse.interpret, hstate, hs, hzero, hblank, hends, Parse.finish, hnil]
  | cons c t ih =>
      obtain ⟨hc, ht⟩ := List.forall_mem_cons.1 ht
      rw [List.cons_append, List.cons_append, parselineLoop_round hs hc, parselineLoop_round hs hc]
      cases hi : s.interpret c with
      | none => rfl
      | some s' =>
          apply ih ht
          rw [Parse.store_backslash, Parse.finish_backslash, Parse.interpret_backslash hi, hs]

end Reading

end PortVpn.Config
