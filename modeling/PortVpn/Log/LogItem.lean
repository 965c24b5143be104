import PortVpn.Lib.ByteBuffer
import PortVpn.Lib.Utf8

/-!
# Log items and their bytes

`LogItem.getMarschaledBytes` writes an item into a byte buffer, and the constructor that takes bytes
reads it again. `ofBytes_getMarschaledBytes` says what is read: all but the level, which goes
through two tables that do not belong together, and an array of more than thirty arguments, which is
refused.

A `float` and a `double` are their bits, and a text is without unpaired surrogates. Other objects
among the arguments are written as their texts (`LoggedItem.unmarschal_marschal`).
-/

set_option autoImplicit false

namespace PortVpn.Log

open PortVpn.Lib PortVpn.Lib.ByteBuffer

/-- `VpnStatus.LogLevel`. -/
inductive LogLevel where
  | INFO
  | ERROR
  | WARNING
  | VERBOSE
  | DEBUG
  deriving DecidableEq, Repr

namespace LogLevel

/-- `LogLevel.getInt`. -/
def getInt : LogLevel → Int32
  | INFO => 2
  | ERROR => -2
  | WARNING => 1
  | VERBOSE => 3
  | DEBUG => 4

/-- `LogLevel.getEnumByValue`; `none` is null. -/
def getEnumByValue (value : Int32) : Option LogLevel :=
  if value = 1 then some INFO
  else if value = 2 then some ERROR
  else if value = 3 then some WARNING
  else if value = 4 then some DEBUG
  else none

/-- What the two tables make of a level. -/
def reread (level : LogLevel) : Option LogLevel := getEnumByValue level.getInt

end LogLevel

/-- An element of `mArgs`. -/
inductive Arg where
  | string (s : Text)
  | integer (i : Int32)
  | float (bits : BitVec 32)
  | double (bits : BitVec 64)
  | long (l : Int64)
  | null
  deriving DecidableEq, Repr

/-- `LogItem`. Null is `none`. -/
structure LogItem where
  mLevel : Option LogLevel := some .INFO
  mArgs : Option (List Arg) := none
  mMessage : Option Text := none
  mRessourceId : Int32 := 0
  logtime : Int64
  mVerbosityLevel : Int32 := -1
  deriving DecidableEq, Repr

/-- What the constructor of `LogItem` and the reader of the log file throw. -/
inductive ReadException where
  | bufferUnderflow
  | indexOutOfBounds
  | negativeArraySize
  | stringTooLong (len remaining : Int)
  | tooManyArguments
  | unknownFormatType (type : BitVec 16)
  | bytesLeft (n : Nat)
  deriving DecidableEq, Repr

namespace LogItem

/-- The elements of `mArgs`. -/
def args (li : LogItem) : List Arg := li.mArgs.getD []

/-! ## Writing -/

/-- `marschalString`. -/
def marschalString (str : Text) : List UInt8 :=
  putInt (Int32.ofNat (Utf8.encode str).length) ++ Utf8.encode str

/-- The bytes of the message. -/
def marschalMessage (message : Option Text) : List UInt8 :=
  match message with
  | none => putInt 0
  | some [] => putInt 0
  | some (c :: cs) => marschalString (c :: cs)

/-- The bytes of one argument. -/
def marschalArg : Arg → List UInt8
  | .string s => putChar 's'.toNat ++ marschalString s
  | .integer i => putChar 'i'.toNat ++ putInt i
  | .float bits => putChar 'f'.toNat ++ putBits 4 bits
  | .double bits => putChar 'd'.toNat ++ putBits 8 bits
  | .long l => putChar 'l'.toNat ++ putLong l
  | .null => putChar '0'.toNat

/-- The bytes of an item with a level. -/
def marschal (li : LogItem) (level : LogLevel) : List UInt8 :=
  0x0 :: (putLong li.logtime ++ (putInt li.mVerbosityLevel ++ (putInt level.getInt ++
    (putInt li.mRessourceId ++ (marschalMessage li.mMessage ++
      (putInt (Int32.ofNat li.args.length) ++ li.args.flatMap marschalArg))))))

/-- `LogItem.getMarschaledBytes`; `none` is the `BufferOverflowException` of the buffer of 16384
bytes, or the `NullPointerException` of an item without a level. -/
def getMarschaledBytes (li : LogItem) : Option (List UInt8) :=
  match li.mLevel with
  | none => none
  | some level =>
      if (li.marschal level).length ≤ 16384 then some (li.marschal level) else none

/-! ## Reading -/

/-- A `get` of the buffer. -/
def orUnderflow {α : Type} (got : Option α) : Except ReadException α :=
  match got with
  | none => .error .bufferUnderflow
  | some x => .ok x

/-- `unmarschalString`. -/
def unmarschalString (bb : List UInt8) : Except ReadException (Text × List UInt8) := do
  let (len, bb) ← orUnderflow (getInt bb)
  if len.toInt < 0 then throw .negativeArraySize
  let (utf8bytes, bb) ← orUnderflow (getBytes len.toInt.toNat bb)
  return (Utf8.decode utf8bytes, bb)

/-- The message. -/
def unmarschalMessage (bb : List UInt8) : Except ReadException (Option Text × List UInt8) := do
  let (len, bb) ← orUnderflow (getInt bb)
  if len = 0 then return (none, bb)
  if bb.length < len.toInt then throw (.stringTooLong len.toInt bb.length)
  if len.toInt < 0 then throw .negativeArraySize
  let (utf8bytes, bb) ← orUnderflow (getBytes len.toInt.toNat bb)
  return (some (Utf8.decode utf8bytes), bb)

/-- One argument. -/
def unmarschalArg (bb : List UInt8) : Except ReadException (Arg × List UInt8) := do
  let (type, bb) ← orUnderflow (getChar bb)
  if type = 's'.toNat then
    let (s, bb) ← unmarschalString bb
    return (.string s, bb)
  else if type = 'i'.toNat then
    let (i, bb) ← orUnderflow (getInt bb)
    return (.integer i, bb)
  else if type = 'd'.toNat then
    let (bits, bb) ← orUnderflow (getBits 8 bb)
    return (.double bits, bb)
  else if type = 'f'.toNat then
    let (bits, bb) ← orUnderflow (getBits 4 bb)
    return (.float bits, bb)
  else if type = 'l'.toNat then
    let (l, bb) ← orUnderflow (getLong bb)
    return (.long l, bb)
  else if type = '0'.toNat then return (.null, bb)
  else throw (.unknownFormatType type)

/-- The loop over the arguments. -/
def unmarschalArgs : Nat → List UInt8 → Except ReadException (List Arg × List UInt8)
  | 0, bb => return ([], bb)
  | n + 1, bb => do
      let (arg, bb) ← unmarschalArg bb
      let (args, bb) ← unmarschalArgs n bb
      return (arg :: args, bb)

/-- The array of the arguments. -/
def unmarschalArray (bb : List UInt8) : Except ReadException (Option (List Arg) × List UInt8) := do
  let (numArgs, bb) ← orUnderflow (getInt bb)
  if 30 < numArgs.toInt then throw .tooManyArguments
  if numArgs = 0 then return (none, bb)
  if numArgs.toInt < 0 then throw .negativeArraySize
  let (args, bb) ← unmarschalArgs numArgs.toInt.toNat bb
  return (some args, bb)

/-- The constructor `LogItem(in, length)`, on the first `length` bytes. -/
def ofBytes (bytes : List UInt8) : Except ReadException LogItem := do
  let (_, bb) ← orUnderflow (getBytes 1 bytes)
  let (logtime, bb) ← orUnderflow (getLong bb)
  let (mVerbosityLevel, bb) ← orUnderflow (ByteBuffer.getInt bb)
  let (level, bb) ← orUnderflow (ByteBuffer.getInt bb)
  let (mRessourceId, bb) ← orUnderflow (ByteBuffer.getInt bb)
  let (mMessage, bb) ← unmarschalMessage bb
  let (mArgs, bb) ← unmarschalArray bb
  if bb ≠ [] then throw (.bytesLeft bb.length)
  return {
    mLevel := LogLevel.getEnumByValue level
    mArgs := mArgs
    mMessage := mMessage
    mRessourceId := mRessourceId
    logtime := logtime
    mVerbosityLevel := mVerbosityLevel }

/-- `LogItem.verify`. -/
def verify (li : LogItem) : Bool :=
  if li.mLevel = none then false
  else if li.mMessage = none ∧ li.mRessourceId = 0 then false
  else true

/-! ## What is read -/

/-- An empty value is read as null. -/
def nullIfEmpty {α : Type} : Option (List α) → Option (List α)
  | some [] => none
  | value => value

/-- The item that is read from the bytes of an item. -/
def reread (li : LogItem) : LogItem :=
  { li with
    mLevel := li.mLevel.bind LogLevel.reread
    mArgs := nullIfEmpty li.mArgs
    mMessage := nullIfEmpty li.mMessage }

theorem ofNat_ne_zero {n : Nat} (h₀ : n ≠ 0) (h : n < 2 ^ 31) : Int32.ofNat n ≠ 0 := by
  intro heq
  have hint := congrArg Int32.toInt heq
  rw [Int32.toInt_ofNat_of_lt h] at hint
  have hzero : Int32.toInt 0 = 0 := by decide
  omega

theorem unmarschalString_marschalString {str : Text} (h : (Utf8.encode str).length < 2 ^ 31)
    (rest : List UInt8) : unmarschalString (marschalString str ++ rest) = .ok (str, rest) := by
  have hlen := Int32.toInt_ofNat_of_lt h
  have hneg : ¬ (Int32.ofNat (Utf8.encode str).length).toInt < 0 := by omega
  have hget : getBytes (Int32.ofNat (Utf8.encode str).length).toInt.toNat
      (Utf8.encode str ++ rest) = some (Utf8.encode str, rest) := by
    rw [hlen, Int.toNat_natCast]
    exact getBytes_append rfl rest
  rw [marschalString, List.append_assoc, unmarschalString, getInt_putInt]
  simp only [orUnderflow, bind, Except.bind, if_neg hneg, hget, Utf8.decode_encode]
  rfl

theorem encode_ne_nil (c : Char) (cs : Text) : (Utf8.encode (c :: cs)).length ≠ 0 := by
  obtain ⟨b, bs, hbytes, -⟩ := Utf8.encodeChar_spec c
  rw [Utf8.encode_cons, hbytes, List.cons_append, List.length_cons]
  exact Nat.succ_ne_zero _

theorem unmarschalMessage_marschalMessage {message : Option Text}
    (h : (marschalMessage message).length < 2 ^ 31) (rest : List UInt8) :
    unmarschalMessage (marschalMessage message ++ rest) = .ok (nullIfEmpty message, rest) := by
  match message with
  | none =>
      rw [marschalMessage, unmarschalMessage, getInt_putInt]
      rfl
  | some [] =>
      rw [marschalMessage, unmarschalMessage, getInt_putInt]
      rfl
  | some (c :: cs) =>
      have hsize : (Utf8.encode (c :: cs)).length < 2 ^ 31 := by
        simp only [marschalMessage, marschalString, List.length_append] at h
        omega
      have hlen := Int32.toInt_ofNat_of_lt hsize
      have hzero := ofNat_ne_zero (encode_ne_nil c cs) hsize
      have hlong : ¬ ((Utf8.encode (c :: cs) ++ rest).length : Int) <
          (Int32.ofNat (Utf8.encode (c :: cs)).length).toInt := by
        rw [hlen, List.length_append]
        omega
      have hneg : ¬ (Int32.ofNat (Utf8.encode (c :: cs)).length).toInt < 0 := by omega
      have hget : getBytes (Int32.ofNat (Utf8.encode (c :: cs)).length).toInt.toNat
          (Utf8.encode (c :: cs) ++ rest) = some (Utf8.encode (c :: cs), rest) := by
        rw [hlen, Int.toNat_natCast]
        exact getBytes_append rfl rest
      rw [marschalMessage, marschalString, List.append_assoc, unmarschalMessage, getInt_putInt]
      simp only [orUnderflow, bind, Except.bind, if_neg hzero, if_neg hlong, if_neg hneg, hget,
        Utf8.decode_encode]
      rfl

theorem unmarschalArg_marschalArg {arg : Arg} (h : (marschalArg arg).length < 2 ^ 31)
    (rest : List UInt8) : unmarschalArg (marschalArg arg ++ rest) = .ok (arg, rest) := by
  cases arg with
  | string s =>
      have hsize : (Utf8.encode s).length < 2 ^ 31 := by
        simp only [marschalArg, marschalString, List.length_append] at h
        omega
      rw [marschalArg, List.append_assoc, unmarschalArg, getChar_putChar]
      simp only [orUnderflow, bind, Except.bind, unmarschalString_marschalString hsize]
      rfl
  | integer i =>
      rw [marschalArg, List.append_assoc, unmarschalArg, getChar_putChar]
      simp only [orUnderflow, bind, Except.bind, getInt_putInt]
      rfl
  | float bits =>
      rw [marschalArg, List.append_assoc, unmarschalArg, getChar_putChar]
      simp only [orUnderflow, bind, Except.bind, getBits_putBits 4]
      rfl
  | double bits =>
      rw [marschalArg, List.append_assoc, unmarschalArg, getChar_putChar]
      simp only [orUnderflow, bind, Except.bind, getBits_putBits 8]
      rfl
  | long l =>
      rw [marschalArg, List.append_assoc, unmarschalArg, getChar_putChar]
      simp only [orUnderflow, bind, Except.bind, getLong_putLong]
      rfl
  | null =>
      rw [marschalArg, unmarschalArg, getChar_putChar]
      rfl

theorem unmarschalArgs_flatMap {args : List Arg} (h : (args.flatMap marschalArg).length < 2 ^ 31)
    (rest : List UInt8) :
    unmarschalArgs args.length (args.flatMap marschalArg ++ rest) = .ok (args, rest) := by
  induction args with
  | nil => rfl
  | cons arg args ih =>
      rw [List.flatMap_cons, List.length_append] at h
      rw [List.flatMap_cons, List.append_assoc, List.length_cons, unmarschalArgs,
        unmarschalArg_marschalArg (by omega)]
      simp only [bind, Except.bind, ih (by omega)]
      rfl

/-- No argument is written without bytes. -/
theorem length_le_flatMap (args : List Arg) : args.length ≤ (args.flatMap marschalArg).length := by
  induction args with
  | nil => exact Nat.le_refl 0
  | cons arg args ih =>
      have harg : 1 ≤ (marschalArg arg).length := by
        cases arg <;> rw [marschalArg] <;> simp only [List.length_append, length_putChar] <;> omega
      rw [List.flatMap_cons, List.length_append, List.length_cons]
      omega

theorem unmarschalArray_marschal {li : LogItem}
    (h : (li.args.flatMap marschalArg).length < 2 ^ 31) :
    unmarschalArray (putInt (Int32.ofNat li.args.length) ++ li.args.flatMap marschalArg) =
      if 30 < li.args.length then .error .tooManyArguments
      else .ok (nullIfEmpty li.mArgs, []) := by
  have hcount : li.args.length < 2 ^ 31 := lt_of_le_of_lt (length_le_flatMap li.args) h
  have hlen := Int32.toInt_ofNat_of_lt hcount
  have hargs := unmarschalArgs_flatMap h []
  rw [List.append_nil] at hargs
  rw [unmarschalArray, getInt_putInt]
  simp only [orUnderflow, bind, Except.bind]
  by_cases hmany : 30 < li.args.length
  -- the count is refused before an argument is read
  · have hmany' : 30 < (Int32.ofNat li.args.length).toInt := by omega
    rw [if_pos hmany, if_pos hmany']
    rfl
  · have hmany' : ¬ 30 < (Int32.ofNat li.args.length).toInt := by omega
    rw [if_neg hmany, if_neg hmany']
    by_cases hnone : li.args = []
    -- no arguments: null and an empty array are written alike
    · have hnull : nullIfEmpty li.mArgs = none := by
        rw [args] at hnone
        cases hm : li.mArgs with
        | none => rfl
        | some args =>
            rw [hm, Option.getD_some] at hnone
            rw [hnone]
            rfl
      rw [hnone, hnull]
      rfl
    · have hsome : nullIfEmpty li.mArgs = some li.args := by
        rw [args] at hnone ⊢
        cases hm : li.mArgs with
        | none =>
            rw [hm] at hnone
            exact absurd rfl hnone
        | some args =>
            rw [hm, Option.getD_some] at hnone
            cases args with
            | nil => exact absurd rfl hnone
            | cons arg args => rfl
      have hzero : Int32.ofNat li.args.length ≠ 0 :=
        ofNat_ne_zero (fun h => hnone (List.eq_nil_of_length_eq_zero h)) hcount
      have hneg : ¬ (li.args.length : Int) < 0 := by omega
      rw [hsome]
      simp only [pure, Except.pure, if_neg hzero, hlen, if_neg hneg, Int.toNat_natCast, hargs]

/-- **An item is read as it was written, but for the level and for more than thirty arguments.** -/
theorem ofBytes_getMarschaledBytes {li : LogItem} {bytes : List UInt8}
    (h : li.getMarschaledBytes = some bytes) :
    ofBytes bytes = if 30 < li.args.length then .error .tooManyArguments else .ok li.reread := by
  rw [getMarschaledBytes] at h
  cases hlevel : li.mLevel with
  | none =>
      rw [hlevel] at h
      cases h
  | some level =>
      rw [hlevel] at h
      dsimp only at h
      split at h
      · rename_i hsize
        obtain rfl := Option.some.inj h
        have hparts : (marschalMessage li.mMessage).length +
            (li.args.flatMap marschalArg).length ≤ 16384 := by
          simp only [marschal, List.length_cons, List.length_append] at hsize
          omega
        have hversion : ∀ rest : List UInt8, getBytes 1 (0x0 :: rest) = some ([0x0], rest) :=
          fun rest => @getBytes_append 1 [0x0] rfl rest
        have hmessage : ∀ rest, unmarschalMessage (marschalMessage li.mMessage ++ rest) =
            .ok (nullIfEmpty li.mMessage, rest) :=
          unmarschalMessage_marschalMessage (by omega)
        have hargs : (li.args.flatMap marschalArg).length < 2 ^ 31 := by omega
        have harray := unmarschalArray_marschal hargs
        rw [marschal, ofBytes, hversion]
        simp only [orUnderflow, bind, Except.bind, getLong_putLong, getInt_putInt, hmessage, harray]
        by_cases hmany : 30 < li.args.length
        · rw [if_pos hmany, if_pos hmany]
        · rw [if_neg hmany, if_neg hmany, reread, hlevel]
          rfl
      · cases h

end LogItem

/-! ## Items as they are logged -/

/-- An element of `mArgs` as it is logged: of a type that has a character of its own, or another
object, of which the text is written. -/
inductive LoggedArg where
  | tagged (arg : Arg)
  | object (toString : Text)
  deriving DecidableEq, Repr

namespace LoggedArg

/-- What can be read of an argument. -/
def written : LoggedArg → Arg
  | tagged arg => arg
  | object toString => .string toString

/-- The bytes of one argument. -/
def marschal : LoggedArg → List UInt8
  | tagged arg => LogItem.marschalArg arg
  | object toString => putChar 's'.toNat ++ LogItem.marschalString toString

theorem marschal_eq (arg : LoggedArg) : arg.marschal = LogItem.marschalArg arg.written := by
  cases arg with
  | tagged arg => rfl
  | object toString => rfl

end LoggedArg

/-- `LogItem` with any objects in `mArgs`. -/
structure LoggedItem where
  mLevel : Option LogLevel := some .INFO
  mArgs : Option (List LoggedArg) := none
  mMessage : Option Text := none
  mRessourceId : Int32 := 0
  logtime : Int64
  mVerbosityLevel : Int32 := -1
  deriving DecidableEq, Repr

namespace LoggedItem

variable (li : LoggedItem)

/-- The elements of `mArgs`. -/
def args : List LoggedArg := li.mArgs.getD []

/-- The bytes of an item with a level. -/
def marschal (level : LogLevel) : List UInt8 :=
  0x0 :: (putLong li.logtime ++ (putInt li.mVerbosityLevel ++ (putInt level.getInt ++
    (putInt li.mRessourceId ++ (LogItem.marschalMessage li.mMessage ++
      (putInt (Int32.ofNat li.args.length) ++ li.args.flatMap LoggedArg.marschal))))))

/-- `LogItem.getMarschaledBytes`, as in `LogItem`. -/
def getMarschaledBytes : Option (List UInt8) :=
  match li.mLevel with
  | none => none
  | some level =>
      if (li.marschal level).length ≤ 16384 then some (li.marschal level) else none

/-- The item that has the texts of its other objects in their places. -/
def written : LogItem where
  mLevel := li.mLevel
  mArgs := li.mArgs.map (List.map LoggedArg.written)
  mMessage := li.mMessage
  mRessourceId := li.mRessourceId
  logtime := li.logtime
  mVerbosityLevel := li.mVerbosityLevel

theorem args_written : li.written.args = li.args.map LoggedArg.written := by
  rw [LogItem.args, args, written]
  cases li.mArgs with
  | none => rfl
  | some args => rfl

/-- An object is written as its text is. -/
theorem marschal_written (level : LogLevel) : li.marschal level = li.written.marschal level := by
  have hargs : li.args.flatMap LoggedArg.marschal =
      li.written.args.flatMap LogItem.marschalArg := by
    rw [args_written, List.flatMap_map]
    exact congrArg (li.args.flatMap ·) (funext LoggedArg.marschal_eq)
  rw [marschal, LogItem.marschal, hargs, args_written, List.length_map]
  rfl

theorem getMarschaledBytes_written : li.getMarschaledBytes = li.written.getMarschaledBytes := by
  rw [getMarschaledBytes, LogItem.getMarschaledBytes]
  simp only [marschal_written]
  rfl

variable {li}

/-- **Every item is decoded from its bytes.** The constructor accepts what `getMarschaledBytes`
writes for an item with a level, at most thirty arguments and at most 16384 bytes, to the last byte;
the item that it makes has the level for the code that was written, the texts in place of other
objects, null for the empty message and for the empty array, and all else as it was. -/
theorem unmarschal_marschal {level : LogLevel} (hlevel : li.mLevel = some level)
    (hargs : li.args.length ≤ 30) (hsize : (li.marschal level).length ≤ 16384) :
    li.getMarschaledBytes = some (li.marschal level) ∧
      LogItem.ofBytes (li.marschal level) = .ok
        { mLevel := LogLevel.getEnumByValue level.getInt
          mArgs := LogItem.nullIfEmpty (li.mArgs.map (List.map LoggedArg.written))
          mMessage := LogItem.nullIfEmpty li.mMessage
          mRessourceId := li.mRessourceId
          logtime := li.logtime
          mVerbosityLevel := li.mVerbosityLevel } := by
  have hbytes : li.getMarschaledBytes = some (li.marschal level) := by
    rw [getMarschaledBytes, hlevel]
    exact if_pos hsize
  have hwritten := hbytes
  rw [getMarschaledBytes_written] at hwritten
  have hread := LogItem.ofBytes_getMarschaledBytes hwritten
  have hfew : ¬ 30 < li.written.args.length := by
    rw [args_written, List.length_map]
    omega
  have hreread : li.written.mLevel.bind LogLevel.reread =
      LogLevel.getEnumByValue level.getInt := by
    rw [written, hlevel]
    rfl
  rw [if_neg hfew, LogItem.reread, hreread] at hread
  exact ⟨hbytes, hread⟩

/-- A text that is empty, another object and null. -/
theorem unmarschal_marschal_mixed :
    let li : LoggedItem :=
      { mLevel := some .DEBUG
        mArgs := some [.tagged (.string []), .object ['t', 'r', 'u', 'e'], .tagged .null]
        mRessourceId := 7
        logtime := 1600000000000 }
    LogItem.ofBytes (li.marschal .DEBUG) = .ok
      { mLevel := some .DEBUG
        mArgs := some [.string [], .string ['t', 'r', 'u', 'e'], .null]
        mRessourceId := 7
        logtime := 1600000000000 } :=
  (unmarschal_marschal rfl (by decide) (by decide +kernel)).2

end LoggedItem

end PortVpn.Log
