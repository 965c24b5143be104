import PortVpn.Log.LogItem
import PortVpn.Log.LogMirror

/-!
# The log file

`LogFileHandler` writes an item as the magic byte, the length of its bytes and the bytes, in which
the magic byte and its successor are escaped. `readCacheContents` reads the file of the last run: it
looks for the next magic byte, reads as many bytes as the length says, and puts what it can make of
them in front of the log buffer; it gives up an item at the first byte that cannot be part of it.
`readItemBytes_flatMap` says that the bytes of an item are read as they were written.
-/

set_option autoImplicit false

namespace PortVpn.Log

open PortVpn.Lib PortVpn.Lib.ByteBuffer

/-! ## Writing -/

def MAGIC_BYTE : UInt8 := 0x55

/-- The bytes that stand for a byte. -/
def escapeByte (b : UInt8) : List UInt8 :=
  if b = MAGIC_BYTE ∨ b = MAGIC_BYTE + 1 then [MAGIC_BYTE + 1, b - MAGIC_BYTE] else [b]

/-- `writeEscapedBytes`: what is written for an item's bytes. -/
def writeEscapedBytes (bytes : List UInt8) : List UInt8 :=
  (MAGIC_BYTE :: putInt (Int32.ofNat bytes.length)) ++ bytes.flatMap escapeByte

/-- `writeLogItemToDisk`: the file with the item. -/
def writeLogItemToDisk (mLogFile : List UInt8) (li : LogItem) : Option (List UInt8) :=
  li.getMarschaledBytes.map fun liBytes => mLogFile ++ writeEscapedBytes liBytes

/-! ## The log buffer -/

/-- What reading depends on: the clock at the time when the log buffer has a given length, the
number of the text `reread_log`, and how the default locale formats a number. -/
structure Platform where
  currentTimeMillis : Nat → Int64
  reread_log : Int32
  format : Int → Text

/-- `VpnStatus.newLogItem(logItem, cachedLine)`. -/
def newLogItem (logbuffer : List LogItem) (logItem : LogItem) (cachedLine : Bool) : List LogItem :=
  let logbuffer := if cachedLine then logItem :: logbuffer else logbuffer ++ [logItem]
  if logbuffer.length > MAXLOGENTRIES + MAXLOGENTRIES / 2 then
    logbuffer.drop (logbuffer.length - MAXLOGENTRIES)
  else logbuffer

namespace Platform

variable (p : Platform)

/-- `VpnStatus.logDebug(msg)` and `VpnStatus.logError(msg)`. -/
def log (level : LogLevel) (msg : Text) (logbuffer : List LogItem) : List LogItem :=
  newLogItem logbuffer
    { mLevel := some level
      mMessage := some msg
      logtime := p.currentTimeMillis logbuffer.length } false

/-- `VpnStatus.logDebug(R.string.reread_log, itemsRead)`. -/
def logReread (itemsRead : Nat) (logbuffer : List LogItem) : List LogItem :=
  newLogItem logbuffer
    { mLevel := some .DEBUG
      mRessourceId := p.reread_log
      mArgs := some [.integer (Int32.ofNat itemsRead)]
      logtime := p.currentTimeMillis logbuffer.length } false

end Platform

/-! ## Reading -/

/-- `%d` of a number for the locale US. -/
def decimal (n : Int) : Text := (toString n).toList

def hexArray : Text := "0123456789ABCDEF".toList

/-- The two hexadecimal digits of a byte. -/
def hexByte (b : UInt8) : Text :=
  [hexArray.getD (b.toNat / 16) '0', hexArray.getD (b.toNat % 16) '0']

/-- `bytesToHex`. -/
def bytesToHex (bytes : List UInt8) (len : Nat) : Text := (bytes.take len).flatMap hexByte

/-- `new byte[buf.length]` with the bytes that were read into it. -/
def padded (bytes : List UInt8) : List UInt8 := bytes ++ List.replicate (16384 - bytes.length) 0

/-- The message of an item that cannot be read. -/
def couldNotRead (p : Platform) (buf : List UInt8) (len : Int) : Text :=
  "Could not read log item from file: ".toList ++ p.format len ++ ": ".toList ++
    bytesToHex buf (max len 80).toNat

/-- `restoreLogItem`: the log buffer afterwards. -/
def restoreLogItem (p : Platform) (buf : List UInt8) (len : Int) (logbuffer : List LogItem) :
    Except ReadException (List LogItem) :=
  if len < 0 ∨ buf.length < len then .error .indexOutOfBounds
  else
    match LogItem.ofBytes (buf.take len.toNat) with
    | .error e => .error e
    | .ok li =>
        if li.verify then .ok (newLogItem logbuffer li true)
        else .ok (p.log .ERROR (couldNotRead p buf len) logbuffer)

/-- `logFile.read()`, cast to a byte. -/
def nextByte : List UInt8 → UInt8 × List UInt8
  | [] => (0xFF, [])
  | b :: rest => (b, rest)

/-- One byte of an item at a position, or the message with which the item is given up. -/
def readEscaped (pos : Nat) (logFile : List UInt8) : Except Text UInt8 × List UInt8 :=
  let (b, logFile) := nextByte logFile
  if b = MAGIC_BYTE then
    (.error ("Unexpected magic byte found at pos ".toList ++ decimal pos ++
      ", abort current log item".toList), logFile)
  else if b = MAGIC_BYTE + 1 then
    let (b, logFile) := nextByte logFile
    if b = 0 then (.ok MAGIC_BYTE, logFile)
    else if b = 1 then (.ok (MAGIC_BYTE + 1), logFile)
    else (.error ("Escaped byte not 0 or 1: ".toList ++ decimal b.toInt8.toInt), logFile)
  else (.ok b, logFile)

/-- What becomes of an item: its bytes, the message with which it is given up, or the
`ArrayIndexOutOfBoundsException` of `buf2`. -/
inductive ItemBytes where
  | read (bytes : List UInt8)
  | aborted (message : Text)
  | indexOutOfBounds
  deriving DecidableEq, Repr

/-- The loop over the bytes of an item, with the number of bytes to come, and what is left of the
file. -/
def readItemBytes : Nat → List UInt8 → List UInt8 → ItemBytes × List UInt8
  | 0, logFile, bytes => (.read bytes, logFile)
  | todo + 1, logFile, bytes =>
      match readEscaped bytes.length logFile with
      | (.error message, logFile) => (.aborted message, logFile)
      | (.ok b, logFile) =>
          if bytes.length < 16384 then readItemBytes todo logFile (bytes ++ [b])
          else (.indexOutOfBounds, logFile)

/-- The array `buf` after bytes were read into it from an offset on. -/
def readInto (buf : Nat → UInt8) (offset : Nat) (bytes : List UInt8) : Nat → UInt8 :=
  fun i => if offset ≤ i then bytes.getD (i - offset) (buf i) else buf i

/-- `ByteBuffer.wrap(buf, offset, 4).asIntBuffer().get()`. -/
def intAt (buf : Nat → UInt8) (offset : Nat) : Int32 :=
  match getInt [buf offset, buf (offset + 1), buf (offset + 2), buf (offset + 3)] with
  | none => 0
  | some (len, _) => len

/-- The search for a magic byte: how many bytes were skipped, and, where one was found, the array
and what is left of the file. -/
def findMagic (buf : Nat → UInt8) (skipped : Nat) :
    List UInt8 → Nat × Option ((Nat → UInt8) × List UInt8)
  | [] => if buf skipped = MAGIC_BYTE then (skipped, some (buf, [])) else (skipped + 1, none)
  | b :: logFile =>
      if buf skipped = MAGIC_BYTE then (skipped, some (buf, b :: logFile))
      else if skipped + 1 + 10 > 16384 then (skipped + 1, none)
      else findMagic (readInto buf (skipped + 1 + 4) [b]) (skipped + 1) logFile

/-- The variables of `readCacheContents`, with what is left of the file and the log buffer. -/
structure ReadState where
  buf : Nat → UInt8
  logFile : List UInt8
  itemsRead : Nat
  logbuffer : List LogItem

/-- Whether `readloop` goes round again, ends, or throws. -/
inductive Pass where
  | again (s : ReadState)
  | ends (s : ReadState)
  | throws (e : ReadException) (logbuffer : List LogItem)

/-- `read = logFile.read(buf, offset, n)`, and back to the head of the loop, which asks for a full
head of five bytes. -/
def ReadState.readHead (s : ReadState) (offset n : Nat) : Pass :=
  let read := s.logFile.take n
  let s := { s with buf := readInto s.buf offset read, logFile := s.logFile.drop n }
  if read.length + offset ≥ 5 then .again s else .ends s

/-- One pass of `readloop`. -/
def ReadState.pass (p : Platform) (s : ReadState) : Pass :=
  match findMagic s.buf 0 s.logFile with
  | (skipped, none) =>
      .ends { s with
        logbuffer := p.log .DEBUG ("Skipped ".toList ++ decimal skipped ++
          " bytes and no a magic byte found".toList) s.logbuffer }
  | (skipped, some (buf, logFile)) =>
      let logbuffer :=
        if skipped > 0 then
          p.log .DEBUG ("Skipped ".toList ++ decimal skipped ++
            " bytes before finding a magic byte".toList) s.logbuffer
        else s.logbuffer
      let len := (intAt buf (skipped + 1)).toInt
      match readItemBytes len.toNat logFile [] with
      | (.indexOutOfBounds, _) => .throws .indexOutOfBounds logbuffer
      | (.aborted message, logFile) =>
          -- the magic byte of the next item is taken to be in the buffer
          ReadState.readHead ⟨buf, logFile, s.itemsRead, p.log .DEBUG message logbuffer⟩ 1 4
      | (.read bytes, logFile) =>
          match restoreLogItem p (padded bytes) len logbuffer with
          | .error e => .throws e logbuffer
          | .ok logbuffer =>
              -- the item that is one too many is restored before the loop gives up
              if s.itemsRead + 1 > 2 * MAXLOGENTRIES then
                .ends ⟨buf, logFile, s.itemsRead + 1,
                  p.log .ERROR "Too many logentries read from cache, aborting.".toList logbuffer⟩
              else ReadState.readHead ⟨buf, logFile, s.itemsRead + 1, logbuffer⟩ 0 5

/-- The log buffer when `readCacheContents` is left, and what it throws, if it does. -/
structure Reading where
  logbuffer : List LogItem
  thrown : Option ReadException := none
  deriving DecidableEq, Repr

/-- `readloop`, for at most `fuel` passes, and the line behind it. -/
def readloop (p : Platform) : Nat → Pass → Reading
  | _, .throws e logbuffer => { logbuffer := logbuffer, thrown := some e }
  | _, .ends s => { logbuffer := p.logReread s.itemsRead s.logbuffer }
  | 0, .again s => { logbuffer := p.logReread s.itemsRead s.logbuffer }
  | fuel + 1, .again s => readloop p fuel (s.pass p)

/-- `readCacheContents`. Every pass takes bytes of the file. -/
def readCacheContents (p : Platform) (file : List UInt8) (logbuffer : List LogItem) : Reading :=
  readloop p file.length
    (ReadState.readHead { buf := fun _ => 0, logFile := file, itemsRead := 0, logbuffer } 0 5)

/-! ## Reading takes bytes of the file -/

theorem nextByte_length (logFile : List UInt8) :
    (nextByte logFile).2.length ≤ logFile.length := by
  cases logFile with
  | nil => exact le_rfl
  | cons b rest => exact Nat.le_succ _

theorem readEscaped_length (pos : Nat) (logFile : List UInt8) :
    (readEscaped pos logFile).2.length ≤ logFile.length := by
  have h₁ := nextByte_length logFile
  have h₂ := nextByte_length (nextByte logFile).2
  rw [readEscaped]
  dsimp only
  split
  · exact h₁
  · split
    · split
      · exact h₂.trans h₁
      · split
        · exact h₂.trans h₁
        · exact h₂.trans h₁
    · exact h₁

theorem readItemBytes_length (todo : Nat) :
    ∀ logFile bytes, (readItemBytes todo logFile bytes).2.length ≤ logFile.length := by
  induction todo with
  | zero => exact fun _ _ => le_rfl
  | succ todo ih =>
      intro logFile bytes
      have hbyte := readEscaped_length bytes.length logFile
      rw [readItemBytes]
      split
      · rename_i heq
        rw [heq] at hbyte
        exact hbyte
      · rename_i heq
        rw [heq] at hbyte
        split
        · exact (ih _ _).trans hbyte
        · exact hbyte

theorem findMagic_length {logFile rest : List UInt8} {buf buf' : Nat → UInt8} {skipped n : Nat}
    (h : findMagic buf skipped logFile = (n, some (buf', rest))) :
    rest.length ≤ logFile.length := by
  induction logFile generalizing buf skipped with
  | nil =>
      rw [findMagic] at h
      split at h
      · cases h
        exact le_rfl
      · cases h
  | cons b logFile ih =>
      rw [findMagic] at h
      split at h
      · cases h
        exact le_rfl
      · split at h
        · cases h
        · exact (ih h).trans (Nat.le_succ _)

/-! ## One item -/

theorem readEscaped_escapeByte (pos : Nat) (b : UInt8) (rest : List UInt8) :
    readEscaped pos (escapeByte b ++ rest) = (.ok b, rest) := by
  by_cases hmagic : b = MAGIC_BYTE
  · subst hmagic
    rfl
  · by_cases hescape : b = MAGIC_BYTE + 1
    · subst hescape
      rfl
    · have hraw : ¬ (b = MAGIC_BYTE ∨ b = MAGIC_BYTE + 1) := not_or.2 ⟨hmagic, hescape⟩
      have hnext : nextByte (b :: rest) = (b, rest) := rfl
      rw [escapeByte, if_neg hraw, readEscaped, List.singleton_append, hnext]
      dsimp only
      rw [if_neg hmagic, if_neg hescape]

/-- The bytes of an item are read as they were before they were escaped, whatever follows. -/
theorem readItemBytes_append (todo : Nat) (bytes rest : List UInt8) :
    ∀ before : List UInt8, before.length + bytes.length ≤ 16384 →
      readItemBytes (bytes.length + todo) (bytes.flatMap escapeByte ++ rest) before =
        readItemBytes todo rest (before ++ bytes) := by
  induction bytes with
  | nil =>
      intro before h
      rw [List.append_nil, List.length_nil, Nat.zero_add]
      rfl
  | cons b bytes ih =>
      intro before h
      rw [List.length_cons] at h
      have hlt : before.length < 16384 := by omega
      rw [List.flatMap_cons, List.append_assoc, List.length_cons, Nat.add_right_comm, readItemBytes,
        readEscaped_escapeByte]
      dsimp only
      rw [if_pos hlt, ih (before ++ [b]) (by rw [List.length_append, List.length_singleton]; omega),
        List.append_assoc, List.singleton_append]

/-- **The bytes of an item are read as they were before they were escaped.** -/
theorem readItemBytes_flatMap (bytes rest before : List UInt8)
    (h : before.length + bytes.length ≤ 16384) :
    readItemBytes bytes.length (bytes.flatMap escapeByte ++ rest) before =
      (.read (before ++ bytes), rest) :=
  readItemBytes_append 0 bytes rest before h

/-- The bytes of a number are in the buffer. -/
theorem intAt_eq {buf : Nat → UInt8} {offset : Nat} {len : Int32}
    (h : ∀ i < 4, buf (offset + i) = (putInt len).getD i 0) : intAt buf offset = len := by
  have hget := getInt_putInt len []
  obtain ⟨b₀, b₁, b₂, b₃, hbytes⟩ : ∃ b₀ b₁ b₂ b₃, putInt len = [b₀, b₁, b₂, b₃] :=
    ⟨_, _, _, _, rfl⟩
  rw [hbytes] at h
  have h₀ : buf offset = b₀ := h 0 (by decide)
  have h₁ : buf (offset + 1) = b₁ := h 1 (by decide)
  have h₂ : buf (offset + 2) = b₂ := h 2 (by decide)
  have h₃ : buf (offset + 3) = b₃ := h 3 (by decide)
  rw [List.append_nil] at hget
  rw [intAt, h₀, h₁, h₂, h₃, ← hbytes, hget]

end PortVpn.Log
