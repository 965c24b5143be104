import Mathlib.Data.List.GetD
import PortVpn.Log.LogFileHandler

/-!
# What reading the log file does

`readCacheContents` logs lines and calls `restoreLogItem`, and none of it changes how the file is
read on, unless `restoreLogItem` throws. `readEvents` lists what it does for a file, in order, and
`readCacheContents_eq_play` says that the log buffer afterwards is what these events make of it. So
the framing can be looked at for any bytes, whether or not they are those of a log item:
`readEvents_frames` says that what was written as items is handed to `restoreLogItem` item by item.
-/

set_option autoImplicit false

namespace PortVpn.Log

open PortVpn.Lib PortVpn.Lib.ByteBuffer

/-! ## The events -/

/-- What `readCacheContents` does besides reading. -/
inductive ReadEvent where
  | logDebug (msg : Text)
  | logError (msg : Text)
  | restoreLogItem (buf2 : List UInt8) (len : Int)
  | reread_log (itemsRead : Nat)
  | indexOutOfBounds
  deriving DecidableEq, Repr

/-- The variables of `readCacheContents`, with what is left of the file. -/
structure Reader where
  buf : Nat → UInt8
  logFile : List UInt8
  itemsRead : Nat

namespace Reader

/-- `read = logFile.read(buf, offset, n)`, and back to the head of the loop, which asks for a full
head of five bytes; without one the loop ends, and the line behind it is logged. -/
def readHead (r : Reader) (offset n : Nat) : List ReadEvent × Option Reader :=
  let read := r.logFile.take n
  if read.length + offset ≥ 5 then
    ([], some { r with buf := readInto r.buf offset read, logFile := r.logFile.drop n })
  else ([.reread_log r.itemsRead], none)

/-- Events in front of those of the rest of a pass. -/
def after (es : List ReadEvent) (next : List ReadEvent × Option Reader) :
    List ReadEvent × Option Reader :=
  (es ++ next.1, next.2)

/-- The bytes of an item, from `pos = 0` on, and back to the head of the loop. -/
def readItem (r : Reader) (len : Int) : List ReadEvent × Option Reader :=
  match readItemBytes len.toNat r.logFile [] with
  | (.indexOutOfBounds, _) => ([.indexOutOfBounds], none)
  | (.aborted message, logFile) =>
      after [.logDebug message] (readHead { r with logFile := logFile } 1 4)
  | (.read bytes, logFile) =>
      after [.restoreLogItem (padded bytes) len]
        (if r.itemsRead + 1 > 2 * MAXLOGENTRIES then
          ([.logError "Too many logentries read from cache, aborting.".toList,
            .reread_log (r.itemsRead + 1)], none)
        else readHead { r with logFile := logFile, itemsRead := r.itemsRead + 1 } 0 5)

/-- One pass of `readloop`. -/
def pass (r : Reader) : List ReadEvent × Option Reader :=
  match findMagic r.buf 0 r.logFile with
  | (skipped, none) =>
      ([.logDebug ("Skipped ".toList ++ decimal skipped ++
        " bytes and no a magic byte found".toList), .reread_log r.itemsRead], none)
  | (skipped, some (buf, logFile)) =>
      after
        (if skipped > 0 then
          [.logDebug ("Skipped ".toList ++ decimal skipped ++
            " bytes before finding a magic byte".toList)]
        else [])
        (readItem { r with buf := buf, logFile := logFile } (intAt buf (skipped + 1)).toInt)

/-- `readloop`, for at most `fuel` passes. -/
def run : Nat → List ReadEvent × Option Reader → List ReadEvent
  | _, (es, none) => es
  | 0, (es, some r) => es ++ [.reread_log r.itemsRead]
  | fuel + 1, (es, some r) => es ++ run fuel r.pass

/-- The events from the point on where a head of five bytes is read. Every pass takes bytes of the
file. -/
def events (r : Reader) : List ReadEvent := run r.logFile.length (r.readHead 0 5)

end Reader

/-- **What `readCacheContents` does** for a file, if `restoreLogItem` does not throw. -/
def readEvents (file : List UInt8) : List ReadEvent :=
  Reader.events { buf := fun _ => 0, logFile := file, itemsRead := 0 }

/-- The calls of `restoreLogItem`. -/
def restoreCalls (es : List ReadEvent) : List (List UInt8 × Int) :=
  es.filterMap fun
    | .restoreLogItem buf2 len => some (buf2, len)
    | _ => none

theorem restoreCalls_append (es es' : List ReadEvent) :
    restoreCalls (es ++ es') = restoreCalls es ++ restoreCalls es' :=
  List.filterMap_append

/-- The calls for arrays of bytes. -/
theorem restoreCalls_map (frames : List (List UInt8)) :
    restoreCalls (frames.map fun bytes => .restoreLogItem (padded bytes) bytes.length) =
      frames.map fun bytes => (padded bytes, (bytes.length : Int)) := by
  rw [restoreCalls, List.filterMap_map]
  exact congrFun List.filterMap_eq_map' frames

/-! ## The log buffer -/

/-- What the events make of the log buffer, up to the first exception. -/
def play (p : Platform) : List ReadEvent → List LogItem → Reading
  | [], logbuffer => { logbuffer := logbuffer }
  | .logDebug msg :: es, logbuffer => play p es (p.log .DEBUG msg logbuffer)
  | .logError msg :: es, logbuffer => play p es (p.log .ERROR msg logbuffer)
  | .restoreLogItem buf2 len :: es, logbuffer =>
      match restoreLogItem p buf2 len logbuffer with
      | .error e => { logbuffer := logbuffer, thrown := some e }
      | .ok logbuffer => play p es logbuffer
  | .reread_log itemsRead :: es, logbuffer => play p es (p.logReread itemsRead logbuffer)
  | .indexOutOfBounds :: _, logbuffer =>
      { logbuffer := logbuffer, thrown := some .indexOutOfBounds }

/-- A reader with a log buffer. -/
def Reader.withBuffer (r : Reader) (logbuffer : List LogItem) : ReadState :=
  ⟨r.buf, r.logFile, r.itemsRead, logbuffer⟩

section Play

variable (p : Platform)

theorem readloop_ends (fuel : Nat) (s : ReadState) :
    readloop p fuel (.ends s) = { logbuffer := p.logReread s.itemsRead s.logbuffer } := by
  cases fuel <;> rfl

theorem readloop_throws (fuel : Nat) (e : ReadException) (logbuffer : List LogItem) :
    readloop p fuel (.throws e logbuffer) = { logbuffer := logbuffer, thrown := some e } := by
  cases fuel <;> rfl

theorem run_after (fuel : Nat) (es : List ReadEvent) (next : List ReadEvent × Option Reader) :
    Reader.run fuel (Reader.after es next) = es ++ Reader.run fuel next := by
  obtain ⟨more, r⟩ := next
  cases r with
  | none => cases fuel <;> rfl
  | some r =>
      cases fuel with
      | zero => exact List.append_assoc _ _ _
      | succ fuel => exact List.append_assoc _ _ _

variable {p} {fuel : Nat}

/-- What is left of a pass behind an item goes on as the events say. -/
theorem readloop_readHead
    (hagain : ∀ (r : Reader) logbuffer, readloop p fuel (.again (r.withBuffer logbuffer)) =
      play p (Reader.run fuel ([], some r)) logbuffer)
    (r : Reader) (logbuffer : List LogItem) (offset n : Nat) :
    readloop p fuel ((r.withBuffer logbuffer).readHead offset n) =
      play p (Reader.run fuel (r.readHead offset n)) logbuffer := by
  obtain ⟨buf, logFile, itemsRead⟩ := r
  rw [Reader.withBuffer, ReadState.readHead, Reader.readHead]
  dsimp only
  by_cases hfull : (logFile.take n).length + offset ≥ 5
  · rw [if_pos hfull, if_pos hfull]
    exact hagain ⟨readInto buf offset (logFile.take n), logFile.drop n, itemsRead⟩ logbuffer
  · rw [if_neg hfull, if_neg hfull, readloop_ends, Reader.run.eq_def]
    rfl

/-- An item of the file goes on as the events say. -/
theorem readloop_pass
    (hagain : ∀ (r : Reader) logbuffer, readloop p fuel (.again (r.withBuffer logbuffer)) =
      play p (Reader.run fuel ([], some r)) logbuffer)
    (r : Reader) (logbuffer : List LogItem) :
    readloop p fuel ((r.withBuffer logbuffer).pass p) =
      play p (Reader.run fuel r.pass) logbuffer := by
  obtain ⟨buf, logFile, itemsRead⟩ := r
  rw [Reader.withBuffer, ReadState.pass, Reader.pass]
  dsimp only
  cases findMagic buf 0 logFile with
  | mk skipped found =>
    cases found with
    | none =>
        dsimp only
        rw [readloop_ends, Reader.run.eq_def]
        rfl
    | some found =>
        obtain ⟨buf, logFile⟩ := found
        dsimp only
        rw [run_after]
        -- the line about what was skipped
        have hskipped : ∀ es, play p
            ((if skipped > 0 then
              [ReadEvent.logDebug ("Skipped ".toList ++ decimal skipped ++
                " bytes before finding a magic byte".toList)]
            else []) ++ es) logbuffer =
            play p es (if skipped > 0 then
              p.log .DEBUG ("Skipped ".toList ++ decimal skipped ++
                " bytes before finding a magic byte".toList) logbuffer
            else logbuffer) := by
          intro es
          by_cases h : skipped > 0
          · rw [if_pos h, if_pos h]
            rfl
          · rw [if_neg h, if_neg h]
            rfl
        rw [hskipped, Reader.readItem]
        generalize (if skipped > 0 then
          p.log .DEBUG ("Skipped ".toList ++ decimal skipped ++
            " bytes before finding a magic byte".toList) logbuffer else logbuffer) = logbuffer
        dsimp only
        cases readItemBytes (intAt buf (skipped + 1)).toInt.toNat logFile [] with
        | mk item logFile =>
          cases item with
          | indexOutOfBounds =>
              dsimp only
              rw [readloop_throws, Reader.run.eq_def]
              rfl
          | aborted message =>
              dsimp only
              rw [run_after]
              exact readloop_readHead hagain ⟨buf, logFile, itemsRead⟩
                (p.log .DEBUG message logbuffer) 1 4
          | read bytes =>
              dsimp only
              rw [run_after, List.singleton_append, play]
              cases restoreLogItem p (padded bytes) (intAt buf (skipped + 1)).toInt logbuffer with
              | error e =>
                  dsimp only
                  rw [readloop_throws]
              | ok logbuffer =>
                  dsimp only
                  by_cases hmany : itemsRead + 1 > 2 * MAXLOGENTRIES
                  · rw [if_pos hmany, if_pos hmany, readloop_ends, Reader.run.eq_def]
                    rfl
                  · rw [if_neg hmany, if_neg hmany]
                    exact readloop_readHead hagain ⟨buf, logFile, itemsRead + 1⟩ logbuffer 0 5

/-- The loop does what the events say. -/
theorem readloop_again (fuel : Nat) : ∀ (r : Reader) (logbuffer : List LogItem),
    readloop p fuel (.again (r.withBuffer logbuffer)) =
      play p (Reader.run fuel ([], some r)) logbuffer := by
  induction fuel with
  | zero => exact fun _ _ => rfl
  | succ fuel ih =>
      intro r logbuffer
      rw [readloop, Reader.run, List.nil_append]
      exact readloop_pass ih r logbuffer

/-- **The log buffer after the reading** is what the events make of the one before it. -/
theorem readCacheContents_eq_play (p : Platform) (file : List UInt8) (logbuffer : List LogItem) :
    readCacheContents p file logbuffer = play p (readEvents file) logbuffer := by
  rw [readCacheContents, readEvents, Reader.events]
  exact readloop_readHead (readloop_again file.length) ⟨fun _ => 0, file, 0⟩ logbuffer 0 5

end Play

/-! ## The loop ends -/

namespace Reader

variable {r r' : Reader}

theorem readHead_length {offset n : Nat} (hoffset : offset < 5)
    (h : (r.readHead offset n).2 = some r') : r'.logFile.length < r.logFile.length := by
  rw [readHead] at h
  split at h
  · rename_i hfull
    obtain rfl := Option.some.inj h
    rw [List.length_take] at hfull
    rw [List.length_drop]
    omega
  · cases h

/-- An item that is given up is followed by what would be there with the first byte of the buffer in
front of the file. -/
theorem readHead_one (r : Reader) :
    r.readHead 1 4 = ({ r with logFile := r.buf 0 :: r.logFile } : Reader).readHead 0 5 := by
  have hbuf : readInto r.buf 0 (r.buf 0 :: r.logFile.take 4) =
      readInto r.buf 1 (r.logFile.take 4) := by
    funext i
    cases i with
    | zero => rfl
    | succ i =>
        rw [readInto, readInto, if_pos (Nat.zero_le _), if_pos (Nat.le_add_left 1 i)]
        rfl
  rw [readHead, readHead]
  dsimp only
  rw [List.take_succ_cons, List.drop_succ_cons, List.length_cons, hbuf]

theorem readItem_length {len : Int} (h : (r.readItem len).2 = some r') :
    r'.logFile.length < r.logFile.length := by
  have hbytes := readItemBytes_length len.toNat r.logFile []
  rw [readItem] at h
  split at h
  · cases h
  · rename_i heq
    rw [heq] at hbytes
    exact lt_of_lt_of_le (readHead_length (by decide) h) hbytes
  · rename_i heq
    rw [heq] at hbytes
    split at h
    · cases h
    · exact lt_of_lt_of_le (readHead_length (by decide) h) hbytes

/-- A pass that goes round again has taken bytes of the file. -/
theorem pass_length (h : r.pass.2 = some r') :
    r'.logFile.length < r.logFile.length := by
  rw [pass] at h
  split at h
  · cases h
  · rename_i hmagic
    exact lt_of_lt_of_le (readItem_length h) (findMagic_length hmagic)

theorem run_none (fuel : Nat) (es : List ReadEvent) : run fuel (es, none) = es := by
  cases fuel <;> rfl

/-- The loop is not cut short: more fuel than bytes of the file changes nothing. -/
theorem run_fuel (more : Nat) : ∀ fuel (r : Reader), r.logFile.length < fuel → ∀ es,
    run (fuel + more) (es, some r) = run fuel (es, some r) := by
  intro fuel
  induction fuel with
  | zero => intro r h; exact absurd h (Nat.not_lt_zero _)
  | succ fuel ih =>
      intro r h es
      rw [Nat.add_right_comm, run, run]
      cases hpass : r.pass with
      | mk es' next =>
        cases next with
        | none => rw [run_none, run_none]
        | some r' =>
            have hless := pass_length (congrArg Prod.snd hpass)
            rw [ih r' (by omega)]

/-- **The loop of `readCacheContents` is not cut short** either. -/
theorem readloop_fuel (p : Platform) (more : Nat) {fuel : Nat} (h : r.logFile.length < fuel)
    (logbuffer : List LogItem) :
    readloop p (fuel + more) (.again (r.withBuffer logbuffer)) =
      readloop p fuel (.again (r.withBuffer logbuffer)) := by
  rw [readloop_again, readloop_again, run_fuel more fuel r h]

/-- **The events of the rest of a file** do not depend on the fuel. -/
theorem run_readHead {fuel : Nat} (h : r.logFile.length ≤ fuel) :
    run fuel (r.readHead 0 5) = r.events := by
  obtain ⟨more, rfl⟩ := Nat.exists_eq_add_of_le h
  rw [events]
  cases hhead : r.readHead 0 5 with
  | mk es next =>
    cases next with
    | none => rw [run_none, run_none]
    | some r' => exact run_fuel more _ r' (readHead_length (by decide) (congrArg Prod.snd hhead)) es

/-! ## One item -/

/-- The events from the bytes of an item on. -/
def itemEvents (r : Reader) (len : Int) : List ReadEvent :=
  match readItemBytes len.toNat r.logFile [] with
  | (.indexOutOfBounds, _) => [.indexOutOfBounds]
  | (.aborted message, logFile) =>
      .logDebug message :: events { r with logFile := r.buf 0 :: logFile }
  | (.read bytes, logFile) =>
      .restoreLogItem (padded bytes) len ::
        if r.itemsRead + 1 > 2 * MAXLOGENTRIES then
          [.logError "Too many logentries read from cache, aborting.".toList,
            .reread_log (r.itemsRead + 1)]
        else events { r with logFile := logFile, itemsRead := r.itemsRead + 1 }

theorem run_readItem {fuel : Nat} {len : Int} (h : r.logFile.length < fuel) :
    run fuel (r.readItem len) = r.itemEvents len := by
  have hbytes := readItemBytes_length len.toNat r.logFile []
  rw [readItem, itemEvents]
  cases hitem : readItemBytes len.toNat r.logFile [] with
  | mk item logFile =>
    rw [hitem] at hbytes
    cases item with
    | indexOutOfBounds => exact run_none _ _
    | aborted message =>
        dsimp only
        rw [run_after, readHead_one, run_readHead]
        · rfl
        · exact lt_of_le_of_lt hbytes h
    | read bytes =>
        dsimp only
        rw [run_after]
        by_cases hmany : r.itemsRead + 1 > 2 * MAXLOGENTRIES
        · rw [if_pos hmany, if_pos hmany, run_none]
          rfl
        · rw [if_neg hmany, if_neg hmany, run_readHead]
          · rfl
          · exact (le_of_lt (lt_of_le_of_lt hbytes h))

/-- The head of five bytes in the buffer. -/
def atHead (r : Reader) : Nat → UInt8 := readInto r.buf 0 (r.logFile.take 5)

theorem readHead_of_length (h : 5 ≤ r.logFile.length) :
    r.readHead 0 5 = ([], some ⟨r.atHead, r.logFile.drop 5, r.itemsRead⟩) := by
  rw [readHead, if_pos (by rw [List.length_take]; omega)]
  rfl

/-- Less than a head is left. -/
theorem events_of_length_lt (h : r.logFile.length < 5) :
    r.events = [.reread_log r.itemsRead] := by
  rw [events, readHead, if_neg (by rw [List.length_take]; omega), run_none]

/-- No magic byte is found. -/
theorem events_of_none (h : 5 ≤ r.logFile.length) {skipped : Nat}
    (hmagic : findMagic r.atHead 0 (r.logFile.drop 5) = (skipped, none)) :
    ∃ message, r.events = [.logDebug message, .reread_log r.itemsRead] := by
  obtain ⟨fuel, hfuel⟩ : ∃ fuel, r.logFile.length = fuel + 1 := ⟨r.logFile.length - 1, by omega⟩
  rw [events, readHead_of_length h, hfuel, run, pass, hmagic, run_none]
  exact ⟨_, rfl⟩

/-- A magic byte is found. -/
theorem events_of_some (h : 5 ≤ r.logFile.length) {skipped : Nat} {buf : Nat → UInt8}
    {logFile : List UInt8}
    (hmagic : findMagic r.atHead 0 (r.logFile.drop 5) = (skipped, some (buf, logFile))) :
    ∃ lines, restoreCalls lines = [] ∧ .indexOutOfBounds ∉ lines ∧ (skipped = 0 → lines = []) ∧
      r.events = lines ++
        itemEvents ⟨buf, logFile, r.itemsRead⟩ (intAt buf (skipped + 1)).toInt := by
  have hrest := findMagic_length hmagic
  rw [List.length_drop] at hrest
  obtain ⟨fuel, hfuel⟩ : ∃ fuel, r.logFile.length = fuel + 1 := ⟨r.logFile.length - 1, by omega⟩
  rw [events, readHead_of_length h, hfuel, run, pass, hmagic]
  dsimp only
  rw [run_after, run_readItem (by dsimp only; omega)]
  by_cases hskipped : skipped > 0
  · rw [if_pos hskipped]
    exact ⟨_, rfl, by simp, fun hzero => absurd hzero (Nat.ne_of_gt hskipped), rfl⟩
  · rw [if_neg hskipped]
    exact ⟨_, rfl, List.not_mem_nil, fun _ => rfl, rfl⟩

end Reader

/-! ## The search for a magic byte -/

/-- The buffer holds the bytes of the file that were read, up to the head at a position. -/
def Holds (buf : Nat → UInt8) (file : List UInt8) (skipped : Nat) : Prop :=
  ∀ i < skipped + 5, buf i = file.getD i 0

section Search

variable {buf : Nat → UInt8} {file : List UInt8} {skipped : Nat}

theorem holds_atHead (r : Reader) (h : 5 ≤ r.logFile.length) : Holds r.atHead r.logFile 0 := by
  intro i hi
  have hlt : i < r.logFile.length := by omega
  have htake : i < (r.logFile.take 5).length := by
    rw [List.length_take]
    omega
  rw [Reader.atHead, readInto, if_pos (Nat.zero_le i), Nat.sub_zero,
    List.getD_eq_getElem _ _ htake, List.getElem_take, List.getD_eq_getElem _ _ hlt]

theorem findMagic_here (hmagic : buf skipped = MAGIC_BYTE) (logFile : List UInt8) :
    findMagic buf skipped logFile = (skipped, some (buf, logFile)) := by
  cases logFile with
  | nil => rw [findMagic, if_pos hmagic]
  | cons b logFile => rw [findMagic, if_pos hmagic]

/-- The search goes on by one byte. -/
theorem findMagic_next (hbuf : Holds buf file skipped) (hmagic : buf skipped ≠ MAGIC_BYTE)
    (hfile : skipped + 5 < file.length) (hroom : skipped + 11 ≤ 16384) :
    ∃ buf', Holds buf' file (skipped + 1) ∧
      findMagic buf skipped (file.drop (skipped + 5)) =
        findMagic buf' (skipped + 1) (file.drop (skipped + 1 + 5)) := by
  refine ⟨readInto buf (skipped + 1 + 4) [file[skipped + 5]], ?_, ?_⟩
  · intro i hi
    rw [readInto]
    by_cases hlast : skipped + 1 + 4 ≤ i
    · obtain rfl : i = skipped + 5 := by omega
      rw [if_pos hlast, List.getD_eq_getElem _ _ hfile]
      simp
    · rw [if_neg hlast]
      exact hbuf i (by omega)
  · rw [List.drop_eq_getElem_cons hfile, findMagic, if_neg hmagic, if_neg (by omega)]

/-- **The first magic byte is found**, if a head fits behind it and it is not too far away. -/
theorem findMagic_first {before tail : List UInt8} (hfile : file = before ++ MAGIC_BYTE :: tail)
    (hbefore : MAGIC_BYTE ∉ before) (htail : 4 ≤ tail.length) (hroom : before.length + 10 ≤ 16384)
    (todo : Nat) : ∀ skipped buf, skipped + todo = before.length → Holds buf file skipped →
      ∃ buf', Holds buf' file before.length ∧
        findMagic buf skipped (file.drop (skipped + 5)) =
          (before.length, some (buf', file.drop (before.length + 5))) := by
  have hlength : file.length = before.length + 1 + tail.length := by
    rw [hfile, List.length_append, List.length_cons]
    omega
  induction todo with
  | zero =>
      intro skipped buf hskipped hbuf
      obtain rfl : skipped = before.length := by omega
      refine ⟨buf, hbuf, findMagic_here ?_ _⟩
      rw [hbuf _ (by omega), hfile, List.getD_append_right _ _ _ _ le_rfl, Nat.sub_self]
      rfl
  | succ todo ih =>
      intro skipped buf hskipped hbuf
      have hlt : skipped < before.length := by omega
      have hother : buf skipped ≠ MAGIC_BYTE := by
        rw [hbuf _ (by omega), hfile, List.getD_append _ _ _ _ hlt, List.getD_eq_getElem _ _ hlt]
        exact ne_of_mem_of_not_mem (List.getElem_mem hlt) hbefore
      obtain ⟨buf', hbuf', hnext⟩ := findMagic_next hbuf hother (by omega) (by omega)
      rw [hnext]
      exact ih (skipped + 1) buf' (by omega) hbuf'

/-- The number of the bytes behind a magic byte. -/
theorem intAt_of_holds {before tail : List UInt8} {len : Int32}
    (hbuf : Holds buf (before ++ MAGIC_BYTE :: (putInt len ++ tail)) before.length) :
    intAt buf (before.length + 1) = len := by
  refine intAt_eq fun i hi => ?_
  rw [hbuf _ (by omega), List.getD_append_right _ _ _ _ (by omega)]
  have hindex : before.length + 1 + i - before.length = i + 1 := by omega
  rw [hindex, List.getD_cons_succ, List.getD_append _ _ _ _ (by rw [length_putInt]; exact hi)]

end Search

namespace Reader

/-! ## Items -/

/-- A head behind bytes that are no magic bytes is found. -/
theorem events_head (r : Reader) {before tail : List UInt8} {len : Int32}
    (hfile : r.logFile = before ++ MAGIC_BYTE :: (putInt len ++ tail))
    (hbefore : MAGIC_BYTE ∉ before) (hroom : before.length + 10 ≤ 16384) :
    ∃ lines buf, restoreCalls lines = [] ∧ .indexOutOfBounds ∉ lines ∧
      (before = [] → lines = []) ∧ Holds buf r.logFile before.length ∧
      r.events = lines ++ itemEvents ⟨buf, tail, r.itemsRead⟩ len.toInt := by
  have hlength : 5 + before.length ≤ r.logFile.length := by
    rw [hfile, List.length_append, List.length_cons, List.length_append, length_putInt]
    omega
  obtain ⟨buf, hbuf, hmagic⟩ := findMagic_first hfile hbefore
    (by rw [List.length_append, length_putInt]; omega) hroom before.length 0 r.atHead
    (Nat.zero_add _) (holds_atHead r (by omega))
  have hdrop : r.logFile.drop (before.length + 5) = tail := by
    have hhead : (before ++ MAGIC_BYTE :: putInt len).length = before.length + 5 := by
      rw [List.length_append, List.length_cons, length_putInt]
    rw [hfile, ← List.cons_append, ← List.append_assoc, ← hhead, List.drop_left]
  rw [Nat.zero_add, hdrop] at hmagic
  obtain ⟨lines, hcalls, hthrown, hnone, hevents⟩ := events_of_some (by omega) hmagic
  refine ⟨lines, buf, hcalls, hthrown, fun h => hnone (by rw [h]; rfl), hbuf, ?_⟩
  rw [hfile] at hbuf
  rw [hevents, intAt_of_holds hbuf]

/-- **The bytes of an item** are handed to `restoreLogItem`. -/
theorem itemEvents_flatMap {buf : Nat → UInt8} {bytes rest : List UInt8} {itemsRead : Nat}
    (hsize : bytes.length ≤ 16384) (hread : itemsRead < 2 * MAXLOGENTRIES) :
    itemEvents ⟨buf, bytes.flatMap escapeByte ++ rest, itemsRead⟩ bytes.length =
      .restoreLogItem (padded bytes) bytes.length :: events ⟨buf, rest, itemsRead + 1⟩ := by
  have hbytes := readItemBytes_flatMap bytes rest [] (by simpa using hsize)
  rw [List.nil_append] at hbytes
  have hfew : ¬ itemsRead + 1 > 2 * MAXLOGENTRIES := by omega
  rw [itemEvents]
  dsimp only
  rw [Int.toNat_natCast, hbytes]
  dsimp only
  rw [if_neg hfew]

theorem toInt_length {bytes : List UInt8} (h : bytes.length ≤ 16384) :
    (Int32.ofNat bytes.length).toInt = bytes.length := Int32.toInt_ofNat_of_lt (by omega)

/-- **What was written as items is read as these items.** -/
theorem events_frames {frames : List (List UInt8)} (hsize : ∀ bytes ∈ frames, bytes.length ≤ 16384)
    (rest : List UInt8) : ∀ (buf : Nat → UInt8) (itemsRead : Nat),
      itemsRead + frames.length ≤ 2 * MAXLOGENTRIES →
      ∃ buf', events ⟨buf, frames.flatMap writeEscapedBytes ++ rest, itemsRead⟩ =
        frames.map (fun bytes => .restoreLogItem (padded bytes) bytes.length) ++
          events ⟨buf', rest, itemsRead + frames.length⟩ := by
  induction frames with
  | nil => exact fun buf _ _ => ⟨buf, rfl⟩
  | cons bytes frames ih =>
      intro buf itemsRead hread
      obtain ⟨hbytes, hframes⟩ := List.forall_mem_cons.1 hsize
      rw [List.length_cons] at hread
      have hfile : (bytes :: frames).flatMap writeEscapedBytes ++ rest =
          [] ++ MAGIC_BYTE :: (putInt (Int32.ofNat bytes.length) ++
            (bytes.flatMap escapeByte ++ (frames.flatMap writeEscapedBytes ++ rest))) := by
        rw [List.flatMap_cons, writeEscapedBytes]
        simp only [List.append_assoc, List.cons_append, List.nil_append]
      obtain ⟨lines, buf₁, -, -, hnone, -, hevents⟩ :=
        events_head ⟨buf, _, itemsRead⟩ hfile List.not_mem_nil (by decide)
      obtain ⟨buf', hrest⟩ := ih hframes buf₁ (itemsRead + 1) (by omega)
      refine ⟨buf', ?_⟩
      rw [hevents, hnone rfl, toInt_length hbytes,
        itemEvents_flatMap hbytes (by dsimp only; omega), hrest, List.map_cons, List.length_cons,
        Nat.add_right_comm, Nat.add_assoc]
      rfl

end Reader

theorem take_padded (bytes : List UInt8) : (padded bytes).take bytes.length = bytes := by
  rw [padded, List.take_left]

/-- What was written as items is handed to `restoreLogItem` item by item, and nothing else happens
but the line about the number of items. -/
theorem readEvents_flatMap {frames : List (List UInt8)} (hcount : frames.length ≤ 2000)
    (hsize : ∀ bytes ∈ frames, bytes.length ≤ 16384) :
    readEvents (frames.flatMap writeEscapedBytes) =
      frames.map (fun bytes => .restoreLogItem (padded bytes) bytes.length) ++
        [.reread_log frames.length] := by
  have hmax : MAXLOGENTRIES = 1000 := rfl
  obtain ⟨buf, hevents⟩ := Reader.events_frames hsize [] (fun _ => 0) 0 (by omega)
  have hend := Reader.events_of_length_lt (r := ⟨buf, [], 0 + frames.length⟩) (Nat.zero_lt_succ 4)
  rw [List.append_nil, hend, Nat.zero_add] at hevents
  rw [readEvents, hevents]

/-- **The framing is lossless.** For up to 2000 arrays of up to 16384 bytes, the calls of
`restoreLogItem` are one for each array, in order, each with the bytes and the length of the array;
nothing else happens but the line about the number of items. -/
theorem readEvents_frames {frames : List (List UInt8)} (hcount : frames.length ≤ 2000)
    (hsize : ∀ bytes ∈ frames, bytes.length ≤ 16384) :
    readEvents (frames.flatMap writeEscapedBytes) =
        frames.map (fun bytes => .restoreLogItem (padded bytes) bytes.length) ++
          [.reread_log frames.length] ∧
      (restoreCalls (readEvents (frames.flatMap writeEscapedBytes))).map
          (fun call => (call.1.take call.2.toNat, call.2)) =
        frames.map fun bytes => (bytes, (bytes.length : Int)) := by
  have hevents := readEvents_flatMap hcount hsize
  refine ⟨hevents, ?_⟩
  have hline : ∀ n, restoreCalls [.reread_log n] = [] := fun _ => rfl
  rw [hevents, restoreCalls_append, restoreCalls_map, hline, List.append_nil, List.map_map]
  apply List.map_congr_left
  intro bytes _
  exact congrArg (·, (bytes.length : Int)) (take_padded bytes)

theorem readEvents_frames_magic :
    readEvents (([[0x55, 0x56], [], [0x00, 0x55]] : List (List UInt8)).flatMap writeEscapedBytes) =
      [.restoreLogItem (padded [0x55, 0x56]) 2, .restoreLogItem (padded []) 0,
        .restoreLogItem (padded [0x00, 0x55]) 2, .reread_log 3] :=
  (readEvents_frames (by decide) (by decide)).1

end PortVpn.Log
