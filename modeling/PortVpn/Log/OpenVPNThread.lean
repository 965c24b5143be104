import PortVpn.Lib.JavaText
import PortVpn.Lib.Regex
import PortVpn.Lib.UniqueReading
import PortVpn.Log.LogItem
import Mathlib.Tactic.IntervalCases

/-!
# The log lines of the OpenVPN process

`OpenVPNThread.startOpenVPNThreadArgs` reads what the process prints and logs one item for each
line. A line of the form `seconds.fraction flags message` is taken apart with a regular expression.
Its third group stands inside the repetition, `([0-9a-f])+`, and so it holds the last digit of the
flags only (`fullMatch_flagged`): the bits that say how severe a line is are never seen.

The line is logged as its flags say exactly when the four severity bits are zero and the last group,
`(.*)`, can read the message (`logs_flags_iff`).

What `\d` and `.` match is left to the regular expression engine (`CharClasses`).
-/

set_option autoImplicit false

namespace PortVpn.Log

open PortVpn.Lib

/-! ## The source -/

/-- What the engine takes for a digit, and what it lets `.` match. -/
structure CharClasses where
  digit : Char → Bool
  dot : Char → Bool
  digit_of_isDigit : ∀ c : Char, c.isDigit → digit c
  not_digit_space : digit ' ' = false
  not_digit_dot : digit '.' = false
  dot_dot : dot '.' = true

/-- The classes that the documentation of `Pattern` gives: ASCII digits, and every character but the
line terminators. -/
def CharClasses.documented : CharClasses where
  digit := Char.isDigit
  dot c := !(['\n', '\r', '\u0085', '\u2028', '\u2029'].contains c)
  digit_of_isDigit _ h := h
  not_digit_space := by decide
  not_digit_dot := by decide
  dot_dot := by decide

/-- `[0-9a-f]`. -/
def isHex (c : Char) : Bool := c.isDigit || ('a' ≤ c && c ≤ 'f')

/-- A character that stands for itself. -/
def literal (c : Char) : Regex Char := .symbol (· == c)

open Regex in
/-- The pattern `(\d+).(\d+) ([0-9a-f])+ (.*)`. -/
def logPattern (cls : CharClasses) : Regex Char :=
  seq (group 1 (plus (symbol cls.digit))) (seq (symbol cls.dot)
    (seq (group 2 (plus (symbol cls.digit))) (seq (literal ' ')
      (seq (plus (group 3 (symbol isHex))) (seq (literal ' ') (group 4 (star (symbol cls.dot))))))))

/-- `Character.digit` for radix sixteen: also the letters `a` to `f`, of either case and width. -/
def hexDigit (c : Char) : Option Nat :=
  match [0x61, 0x41, 0xFF41, 0xFF21].find? fun a => a ≤ c.toNat && c.toNat < a + 6 with
  | some a => some (c.toNat - a + 10)
  | none => digit c

def parseHexDigits : Text → Option Nat
  | [] => none
  | t => t.foldlM (fun n c => (hexDigit c).map (16 * n + ·)) 0

/-- `Integer.parseInt` with radix sixteen; `none` is a `NumberFormatException`. -/
def parseHex (t : Text) : Option Int32 := do
  let n ← match t with
    | '-' :: ds => (parseHexDigits ds).map fun n => -(n : Int)
    | '+' :: ds => (parseHexDigits ds).map Int.ofNat
    | ds => (parseHexDigits ds).map Int.ofNat
  if -2 ^ 31 ≤ n ∧ n ≤ 2 ^ 31 - 1 then some (Int32.ofInt n) else none

def M_FATAL : Int32 := (1 : Int32) <<< 4
def M_NONFATAL : Int32 := (1 : Int32) <<< 5
def M_WARN : Int32 := (1 : Int32) <<< 6
def M_DEBUG : Int32 := (1 : Int32) <<< 7

/-- The calls of the log methods of `VpnStatus`; of an exception its message is kept. -/
inductive LogCall where
  | logMessageOpenVPN (level : LogLevel) (ovpnlevel : Int32) (message : Text)
  | logInfo (message : Text)
  | logException (context message : Text)
  deriving DecidableEq, Repr

/-- `logStatus` of a matched line. -/
def logStatus (flags : Int32) : LogLevel :=
  if flags &&& M_FATAL ≠ 0 then .ERROR
  else if flags &&& M_NONFATAL ≠ 0 then .WARNING
  else if flags &&& M_WARN ≠ 0 then .WARNING
  else if flags &&& M_DEBUG ≠ 0 then .VERBOSE
  else .INFO

/-- `logLevel` of a matched line. -/
def logLevel (flags : Int32) (msg : Text) : Int32 :=
  if "MANAGEMENT: CMD".toList.isPrefixOf msg then max 4 (flags &&& 0x0F) else flags &&& 0x0F

/-- What a line is logged as; `none` is the `NumberFormatException` of its flags. -/
def logCall (cls : CharClasses) (logline : Text) : Option LogCall :=
  match Regex.fullMatch (logPattern cls) logline with
  | some m =>
      let msg := (m 4).getD []
      (parseHex ((m 3).getD [])).map fun flags =>
        .logMessageOpenVPN (logStatus flags) (logLevel flags msg) msg
  | none => some (.logInfo ("P:".toList ++ logline))

/-- The fields of `OpenVPNThread` that its loop sets. -/
structure OpenVPNThread where
  mDumpPath : Option Text := none
  mBrokenPie : Bool := false
  deriving DecidableEq, Repr

def DUMP_PATH_STRING : Text := "Dump path: ".toList
def BROKEN_PIE_SUPPORT : Text := "/data/data/de.blinkt.openvpn/cache/pievpn".toList
def BROKEN_PIE_SUPPORT2 : Text := "syntax error".toList

/-- What a line says about the process. -/
def OpenVPNThread.scan (t : OpenVPNThread) (logline : Text) : OpenVPNThread where
  mDumpPath :=
    if DUMP_PATH_STRING.isPrefixOf logline then some (logline.drop DUMP_PATH_STRING.length)
    else t.mDumpPath
  mBrokenPie :=
    t.mBrokenPie || BROKEN_PIE_SUPPORT.isPrefixOf logline ||
      logline.tails.any (BROKEN_PIE_SUPPORT2.isPrefixOf ·)

/-- What `readLine` gives: a line, together with whether the thread is found interrupted after it,
or an exception. -/
inductive Read where
  | line (logline : Text) (interrupted : Bool)
  | ioException (message : Text)

/-- How the loop ends: at the end of the output, in the `catch` block, which stops the process, or
with an exception for the caller. -/
inductive Ending where
  | returned
  | stopProcess
  | numberFormatException
  deriving DecidableEq, Repr

/-- What the loop has done. -/
structure OutputRun where
  log : List LogCall
  thread : OpenVPNThread
  ending : Ending
  deriving DecidableEq, Repr

/-- The `catch` block of `startOpenVPNThreadArgs`. -/
def caught (t : OpenVPNThread) (message : Text) : OutputRun :=
  ⟨[.logException "Error reading from output of OpenVPN process".toList message], t, .stopProcess⟩

/-- The loop of `startOpenVPNThreadArgs` over what the process prints. -/
def startOpenVPNThreadArgs (cls : CharClasses) (t : OpenVPNThread) : List Read → OutputRun
  | [] => ⟨[], t, .returned⟩
  | .ioException message :: _ => caught t message
  | .line logline interrupted :: rest =>
      match logCall cls logline with
      | none => ⟨[], t.scan logline, .numberFormatException⟩
      | some call =>
          let later :=
            if interrupted then
              caught (t.scan logline) "OpenVpn process was killed form java code".toList
            else startOpenVPNThreadArgs cls (t.scan logline) rest
          { later with log := call :: later.log }

/-! ## What the pattern matches -/

/-- The ways to match a line: the third group is one digit. -/
structure Parts (cls : CharClasses) (logline : Text) where
  seconds : Text
  point : Char
  fraction : Text
  front : Text
  last : Char
  message : Text
  seconds_ne : seconds ≠ []
  fraction_ne : fraction ≠ []
  seconds_digit : ∀ c ∈ seconds, cls.digit c
  fraction_digit : ∀ c ∈ fraction, cls.digit c
  point_dot : cls.dot point
  front_hex : ∀ c ∈ front, isHex c
  last_hex : isHex last
  message_dot : ∀ c ∈ message, cls.dot c
  line_eq : logline =
    seconds ++ point :: (fraction ++ ' ' :: (front ++ last :: ' ' :: message))

/-- What the four groups hold in the end. -/
def Parts.groups {cls : CharClasses} {logline : Text} (p : Parts cls logline) :
    Nat → Option Text :=
  Function.update (Function.update (Function.update (Function.update (fun _ => none)
    1 (some p.seconds)) 2 (some p.fraction)) 3 (some [p.last])) 4 (some p.message)

theorem mem_ends_literal {c : Char} {a b : Point Char} :
    b ∈ (literal c).ends a ↔ a.rest = c :: b.rest ∧ b.groups = a.groups := by
  simp [literal]

theorem mem_ends_logPattern {cls : CharClasses} {logline : Text} {groups : Nat → Option Text} :
    (⟨[], groups⟩ : Point Char) ∈ (logPattern cls).ends (Regex.start logline) ↔
      ∃ p : Parts cls logline, groups = p.groups := by
  simp only [logPattern, Regex.mem_ends_seq, Regex.mem_ends_symbol, mem_ends_literal,
    Regex.mem_ends_group_plus, Regex.mem_ends_group_star, Regex.mem_ends_plus_group]
  constructor
  -- a match gives the parts, one for each factor of the pattern
  · rintro ⟨b₁, ⟨seconds, hs₀, hs, h₁, g₁⟩, b₂, ⟨point, hp, h₂, g₂⟩,
      b₃, ⟨fraction, hf₀, hf, h₃, g₃⟩, b₄, ⟨h₄, g₄⟩, b₅, ⟨front, last, hw, hl, h₅, g₅⟩,
      b₆, ⟨h₆, g₆⟩, message, hm, h₇, g₇⟩
    refine ⟨⟨seconds, point, fraction, front, last, message, hs₀, hf₀, hs, hf, hp, hw, hl, hm, ?_⟩,
      ?_⟩
    · rw [List.append_nil] at h₇
      rw [← h₇, ← h₆, ← h₅, ← h₄, ← h₃, ← h₂, ← h₁]
      rfl
    · rw [g₇, g₆, g₅, g₄, g₃, g₂, g₁]
      rfl
  · rintro ⟨p, rfl⟩
    -- the parts give a match, with the groups set on the way
    let g₁ := Function.update (fun _ => none) 1 (some p.seconds)
    let g₂ := Function.update g₁ 2 (some p.fraction)
    let g₃ := Function.update g₂ 3 (some [p.last])
    let t₅ := ' ' :: p.message
    let t₃ := ' ' :: (p.front ++ p.last :: t₅)
    refine ⟨⟨p.point :: (p.fraction ++ t₃), g₁⟩,
      ⟨p.seconds, p.seconds_ne, p.seconds_digit, p.line_eq, rfl⟩,
      ⟨p.fraction ++ t₃, g₁⟩, ⟨p.point, p.point_dot, rfl, rfl⟩,
      ⟨t₃, g₂⟩, ⟨p.fraction, p.fraction_ne, p.fraction_digit, rfl, rfl⟩,
      ⟨p.front ++ p.last :: t₅, g₂⟩, ⟨rfl, rfl⟩,
      ⟨t₅, g₃⟩, ⟨p.front, p.last, p.front_hex, p.last_hex, rfl, rfl⟩,
      ⟨p.message, g₃⟩, ⟨rfl, rfl⟩,
      p.message, p.message_dot, (List.append_nil _).symm, rfl⟩

/-! ## Digits -/

theorem mem_hexDigits {c : Char} (h : isHex c) : c ∈ "0123456789abcdef".toList := by
  have hrange : (48 ≤ c.toNat ∧ c.toNat ≤ 57) ∨ (97 ≤ c.toNat ∧ c.toNat ≤ 102) := by
    simp only [isHex, Char.isDigit, Bool.or_eq_true, Bool.and_eq_true, decide_eq_true_eq] at h
    exact h
  rw [← Char.ofNat_toNat c]
  generalize c.toNat = n at hrange
  rcases hrange with ⟨hlow, hhigh⟩ | ⟨hlow, hhigh⟩ <;> interval_cases n <;> decide

/-- The value of a row of hexadecimal digits. -/
def hexValue (t : Text) : Nat := t.foldl (fun v c => 16 * v + (hexDigit c).getD 0) 0

/-- One digit says nothing about severity. -/
theorem read_hexDigit {c : Char} (h : isHex c) :
    ∃ d < 16, (hexDigit c).getD 0 = d ∧ parseHex [c] = some (Int32.ofNat d) ∧
      logStatus (Int32.ofNat d) = .INFO ∧ Int32.ofNat d &&& 0x0F = Int32.ofNat d ∧
      max 4 (Int32.ofNat d) = Int32.ofNat (max 4 d) := by
  have hall : ∀ c ∈ "0123456789abcdef".toList, ∃ d < 16, (hexDigit c).getD 0 = d ∧
      parseHex [c] = some (Int32.ofNat d) ∧ logStatus (Int32.ofNat d) = .INFO ∧
        Int32.ofNat d &&& 0x0F = Int32.ofNat d ∧
          max 4 (Int32.ofNat d) = Int32.ofNat (max 4 d) := by
    decide
  exact hall c (mem_hexDigits h)

theorem hexValue_concat (front : Text) (c : Char) :
    hexValue (front ++ [c]) = 16 * hexValue front + (hexDigit c).getD 0 := by
  simp [hexValue]

/-! ## Lines with flags -/

/-- An output line with flags, each part of the form that OpenVPN prints. -/
structure FlaggedLine where
  seconds : Text
  fraction : Text
  hex : Text
  message : Text
  seconds_ne : seconds ≠ []
  fraction_ne : fraction ≠ []
  hex_ne : hex ≠ []
  seconds_digit : ∀ c ∈ seconds, c.isDigit
  fraction_digit : ∀ c ∈ fraction, c.isDigit
  hex_hex : ∀ c ∈ hex, isHex c
  flags_lt : hexValue hex < 2 ^ 31

namespace FlaggedLine

def flags (l : FlaggedLine) : Nat := hexValue l.hex

def text (l : FlaggedLine) : Text :=
  l.seconds ++ '.' :: (l.fraction ++ ' ' :: (l.hex ++ ' ' :: l.message))

/-- How severe the flags say a line is. -/
def severity (l : FlaggedLine) : LogLevel :=
  if l.flags.testBit 4 then .ERROR
  else if l.flags.testBit 5 ∨ l.flags.testBit 6 then .WARNING
  else if l.flags.testBit 7 then .VERBOSE
  else .INFO

/-- How verbose the flags say a line is. -/
def verbosity (l : FlaggedLine) : Nat :=
  if "MANAGEMENT: CMD".toList.isPrefixOf l.message then max 4 (l.flags % 16) else l.flags % 16

theorem severity_eq_INFO_iff (l : FlaggedLine) :
    l.severity = .INFO ↔ ∀ i, 4 ≤ i → i < 8 → l.flags.testBit i = false := by
  have hbits : (∀ i, 4 ≤ i → i < 8 → l.flags.testBit i = false) ↔
      l.flags.testBit 4 = false ∧ l.flags.testBit 5 = false ∧ l.flags.testBit 6 = false ∧
        l.flags.testBit 7 = false := by
    constructor
    · intro h
      exact ⟨h 4 (by omega) (by omega), h 5 (by omega) (by omega), h 6 (by omega) (by omega),
        h 7 (by omega) (by omega)⟩
    · rintro ⟨h4, h5, h6, h7⟩ i hlow hhigh
      interval_cases i <;> assumption
  rw [hbits, severity]
  cases l.flags.testBit 4 <;> cases l.flags.testBit 5 <;> cases l.flags.testBit 6 <;>
    cases l.flags.testBit 7 <;> simp

variable {cls : CharClasses}

theorem not_mem_of_digits {x : Char} (hx : cls.digit x = false) {t : Text}
    (h : ∀ c ∈ t, cls.digit c) : x ∉ t := by
  intro hmem
  rw [h x hmem] at hx
  cases hx

/-- The line can be taken apart in no other way at its flags and its message. -/
theorem parts_eq {l : FlaggedLine} (p : Parts cls l.text) :
    l.hex = p.front ++ [p.last] ∧ l.message = p.message := by
  have hseconds : ' ' ∉ l.seconds := not_mem_of_digits cls.not_digit_space fun c hc =>
    cls.digit_of_isDigit c (l.seconds_digit c hc)
  have hfraction : ' ' ∉ l.fraction := not_mem_of_digits cls.not_digit_space fun c hc =>
    cls.digit_of_isDigit c (l.fraction_digit c hc)
  have hbefore : ' ' ∉ l.seconds ++ '.' :: l.fraction := by simp [hseconds, hfraction]
  have hline : (l.seconds ++ '.' :: l.fraction) ++ ' ' :: (l.hex ++ ' ' :: l.message) =
      p.seconds ++ p.point :: (p.fraction ++ ' ' :: (p.front ++ p.last :: ' ' :: p.message)) := by
    rw [← p.line_eq, text, List.append_assoc]
    rfl
  have hpseconds := not_mem_of_digits cls.not_digit_space p.seconds_digit
  have hpfraction := not_mem_of_digits cls.not_digit_space p.fraction_digit
  -- a point that is the first space would leave the whole front of the line to the first group
  have hpoint : ' ' ≠ p.point := by
    intro heq
    rw [← heq] at hline
    obtain ⟨hfront, -⟩ := append_cons_inj hbefore hpseconds hline
    apply not_mem_of_digits cls.not_digit_dot p.seconds_digit
    rw [← hfront]
    simp
  have hpbefore : ' ' ∉ p.seconds ++ p.point :: p.fraction := by
    simp [hpseconds, hpfraction, hpoint]
  have hspace : (l.seconds ++ '.' :: l.fraction) ++ ' ' :: (l.hex ++ ' ' :: l.message) =
      (p.seconds ++ p.point :: p.fraction) ++
        ' ' :: ((p.front ++ [p.last]) ++ ' ' :: p.message) := by
    rw [hline]
    simp
  obtain ⟨-, hafter⟩ := append_cons_inj hbefore hpbefore hspace
  have hspace_hex : ∀ {t : Text}, (∀ c ∈ t, isHex c) → ' ' ∉ t := by
    intro t ht hmem
    exact absurd (ht ' ' hmem) (by decide)
  apply append_cons_inj (hspace_hex l.hex_hex) _ hafter
  apply hspace_hex
  intro c hc
  rcases List.mem_append.1 hc with hc | hc
  · exact p.front_hex c hc
  · exact List.mem_singleton.1 hc ▸ p.last_hex

/-- Where the last group can read the message, there is a way to match the line. -/
theorem exists_parts {l : FlaggedLine} (h : ∀ c ∈ l.message, cls.dot c) :
    Nonempty (Parts cls l.text) := by
  have hlast := List.dropLast_append_getLast l.hex_ne
  refine ⟨⟨l.seconds, '.', l.fraction, l.hex.dropLast, l.hex.getLast l.hex_ne, l.message,
    l.seconds_ne, l.fraction_ne, ?_, ?_, cls.dot_dot, ?_, ?_, h, ?_⟩⟩
  · intro c hc
    exact cls.digit_of_isDigit c (l.seconds_digit c hc)
  · intro c hc
    exact cls.digit_of_isDigit c (l.fraction_digit c hc)
  · intro c hc
    exact l.hex_hex c (List.mem_of_mem_dropLast hc)
  · exact l.hex_hex _ (List.getLast_mem l.hex_ne)
  · rw [text, ← List.singleton_append (l := ' ' :: l.message), ← List.append_assoc, hlast]

theorem fullMatch_flagged (l : FlaggedLine) (h : ∀ c ∈ l.message, cls.dot c) :
    ∃ p : Parts cls l.text, Regex.fullMatch (logPattern cls) l.text = some p.groups := by
  obtain ⟨p⟩ := exists_parts h
  obtain ⟨groups, hmatch⟩ := Regex.exists_fullMatch (mem_ends_logPattern.2 ⟨p, rfl⟩)
  obtain ⟨p', rfl⟩ := mem_ends_logPattern.1 (Regex.exists_of_fullMatch hmatch)
  exact ⟨p', hmatch⟩

end FlaggedLine

/-! ## What a line is logged as -/

section

variable {cls : CharClasses}

/-- A line that matches is logged with the level of its last digit. -/
theorem logCall_of_parts {logline : Text} (p : Parts cls logline)
    (h : Regex.fullMatch (logPattern cls) logline = some p.groups) :
    logCall cls logline = some (.logMessageOpenVPN .INFO
      (Int32.ofNat (if "MANAGEMENT: CMD".toList.isPrefixOf p.message then
        max 4 ((hexDigit p.last).getD 0) else (hexDigit p.last).getD 0)) p.message) := by
  obtain ⟨d, -, hd, hparse, hstatus, hlevel, hmax⟩ := read_hexDigit p.last_hex
  have hthird : (p.groups 3).getD [] = [p.last] := rfl
  have hfourth : (p.groups 4).getD [] = p.message := rfl
  simp only [logCall, h, hthird, hfourth, hparse, Option.map_some, hstatus, logLevel, hlevel, hmax,
    hd]
  split <;> rfl

/-- No line makes the number of its flags fail. -/
theorem exists_logCall (cls : CharClasses) (logline : Text) :
    ∃ call, logCall cls logline = some call := by
  cases h : Regex.fullMatch (logPattern cls) logline with
  | none => exact ⟨.logInfo ("P:".toList ++ logline), by simp [logCall, h]⟩
  | some groups =>
      obtain ⟨p, rfl⟩ := mem_ends_logPattern.1 (Regex.exists_of_fullMatch h)
      exact ⟨_, logCall_of_parts p h⟩

theorem FlaggedLine.logCall_text {l : FlaggedLine} (h : ∀ c ∈ l.message, cls.dot c) :
    logCall cls l.text =
      some (.logMessageOpenVPN .INFO (Int32.ofNat l.verbosity) l.message) := by
  obtain ⟨p, hmatch⟩ := l.fullMatch_flagged h
  obtain ⟨d, hd, hvalue, -⟩ := read_hexDigit p.last_hex
  obtain ⟨hhex, hmessage⟩ := parts_eq p
  have hflags : l.flags % 16 = (hexDigit p.last).getD 0 := by
    rw [flags, hhex, hexValue_concat, hvalue]
    omega
  rw [logCall_of_parts p hmatch, verbosity, hflags, hmessage]

/-- A message that the last group cannot read makes the line a message of the process. -/
theorem FlaggedLine.logCall_text_of_not_dot {l : FlaggedLine}
    (h : ¬ ∀ c ∈ l.message, cls.dot c) :
    logCall cls l.text = some (.logInfo ("P:".toList ++ l.text)) := by
  cases hmatch : Regex.fullMatch (logPattern cls) l.text with
  | none => simp [logCall, hmatch]
  | some groups =>
      obtain ⟨p, rfl⟩ := mem_ends_logPattern.1 (Regex.exists_of_fullMatch hmatch)
      rw [(parts_eq p).2] at h
      exact absurd p.message_dot h

/-! ## Runs of the loop -/

/-- Every line that is read is logged, and no line ends the loop with an exception. -/
theorem startOpenVPNThreadArgs_append (before : List Text) (rest : List Read) :
    ∀ t : OpenVPNThread, ∃ calls t', calls.length = before.length ∧
      startOpenVPNThreadArgs cls t (before.map (Read.line · false) ++ rest) =
        { startOpenVPNThreadArgs cls t' rest with
          log := calls ++ (startOpenVPNThreadArgs cls t' rest).log } := by
  induction before with
  | nil =>
      intro t
      exact ⟨[], t, rfl, rfl⟩
  | cons logline before ih =>
      intro t
      obtain ⟨call, hcall⟩ := exists_logCall cls logline
      obtain ⟨calls, t', hlength, hrun⟩ := ih (t.scan logline)
      refine ⟨call :: calls, t', by simp [hlength], ?_⟩
      simp [startOpenVPNThreadArgs, hcall, hrun]

theorem log_line (t : OpenVPNThread) (logline : Text) (interrupted : Bool) (rest : List Read) :
    (startOpenVPNThreadArgs cls t (.line logline interrupted :: rest)).log[0]? =
      logCall cls logline := by
  obtain ⟨call, hcall⟩ := exists_logCall cls logline
  rw [startOpenVPNThreadArgs, hcall]
  rfl

theorem log_after (t : OpenVPNThread) (before : List Text) (logline : Text) (interrupted : Bool)
    (rest : List Read) :
    (startOpenVPNThreadArgs cls t
      (before.map (Read.line · false) ++ .line logline interrupted :: rest)).log[before.length]? =
      logCall cls logline := by
  obtain ⟨calls, t', hlength, hrun⟩ :=
    startOpenVPNThreadArgs_append before (.line logline interrupted :: rest) t
  rw [hrun, ← log_line t' logline interrupted rest, ← hlength,
    List.getElem?_append_right (Nat.le_refl _), Nat.sub_self]

end

/-- The loop never ends with the exception of a number. -/
theorem ending_ne_numberFormatException (cls : CharClasses) (reads : List Read) :
    ∀ t : OpenVPNThread,
      (startOpenVPNThreadArgs cls t reads).ending ≠ .numberFormatException := by
  induction reads with
  | nil => simp [startOpenVPNThreadArgs]
  | cons read reads ih =>
      intro t
      cases read with
      | ioException message => simp [startOpenVPNThreadArgs, caught]
      | line logline interrupted =>
          obtain ⟨call, hcall⟩ := exists_logCall cls logline
          cases interrupted with
          | true => simp [startOpenVPNThreadArgs, hcall, caught]
          | false => simpa [startOpenVPNThreadArgs, hcall] using ih (t.scan logline)

/-- Wherever it stands in the output, a line is logged as its flags say exactly when none of the
bits for severity is set and the message can be matched. -/
theorem logs_flags_iff (cls : CharClasses) (t : OpenVPNThread) (before : List Text)
    (l : FlaggedLine) (interrupted : Bool) (after : List Read) :
    (startOpenVPNThreadArgs cls t
      (before.map (Read.line · false) ++ .line l.text interrupted :: after)).log[before.length]? =
        some (.logMessageOpenVPN l.severity (Int32.ofNat l.verbosity) l.message) ↔
      (∀ i, 4 ≤ i → i < 8 → l.flags.testBit i = false) ∧ ∀ c ∈ l.message, cls.dot c := by
  rw [log_after, ← l.severity_eq_INFO_iff]
  by_cases hdot : ∀ c ∈ l.message, cls.dot c
  · rw [l.logCall_text hdot, Option.some.injEq, LogCall.logMessageOpenVPN.injEq]
    constructor
    · rintro ⟨hlevel, -⟩
      exact ⟨hlevel.symm, hdot⟩
    · rintro ⟨hlevel, -⟩
      exact ⟨hlevel.symm, rfl, rfl⟩
  · rw [l.logCall_text_of_not_dot hdot]
    constructor
    · intro h
      cases h
    · rintro ⟨-, h⟩
      exact absurd h hdot

/-- The line `1.2 41 low`, a warning. -/
def warningLine : FlaggedLine where
  seconds := "1".toList
  fraction := "2".toList
  hex := "41".toList
  message := "low".toList
  seconds_ne := by decide
  fraction_ne := by decide
  hex_ne := by decide
  seconds_digit := by decide
  fraction_digit := by decide
  hex_hex := by decide
  flags_lt := by decide

theorem warning_logged_as_info :
    ¬ ∀ (cls : CharClasses) (t : OpenVPNThread) (before : List Text) (l : FlaggedLine)
      (interrupted : Bool) (after : List Read),
      (startOpenVPNThreadArgs cls t
        (before.map (Read.line · false) ++ .line l.text interrupted :: after)).log[before.length]? =
          some (.logMessageOpenVPN l.severity (Int32.ofNat l.verbosity) l.message) := by
  intro h
  have hline := h .documented {} [] warningLine false []
  revert hline
  decide

end PortVpn.Log
