import PortVpn.Log.ReadEvents

/-!
# Records that were cut short

A crash can leave a record of the log file without its end, and then other records follow, or the
file ends. `readCacheContents` gives such a record up at the magic byte of the next one, and goes on
with that byte as if it were still the first one of its buffer. That is so unless the cut record is
the first one and something else stood in front of it: then the next record is lost too. At the end
of the file, the bytes that are missing are read as `0xFF`, so that the cut record is handed to
`restoreLogItem`, unless the escape byte is the last one.

`recovers_iff` is the exact condition on the cut.
-/

set_option autoImplicit false

namespace PortVpn.Log

open PortVpn.Lib PortVpn.Lib.ByteBuffer

/-! ## The statement -/

/-- Bytes that are no magic byte, and records behind them, of which one may be cut inside its
escaped bytes, of which `kept` are left. -/
structure CutFile where
  junk : List UInt8
  before : List (List UInt8)
  cut : Option (List UInt8 × Nat)
  behind : List (List UInt8)
  junk_length : junk.length ≤ 1000
  junk_plain : MAGIC_BYTE ∉ junk
  size : ∀ bytes ∈ before ++ behind, bytes.length ≤ 16384
  inside : ∀ bytes kept, cut = some (bytes, kept) →
    bytes.length ≤ 16384 ∧ kept < (bytes.flatMap escapeByte).length
  count : before.length + (if cut.isSome then 1 else 0) + behind.length ≤ 2000

namespace CutFile

/-- What is left of the record that was cut. -/
def cutRecord : Option (List UInt8 × Nat) → List UInt8
  | none => []
  | some (bytes, kept) => (writeEscapedBytes bytes).take (5 + kept)

def file (f : CutFile) : List UInt8 :=
  f.junk ++ (f.before.flatMap writeEscapedBytes ++
    (cutRecord f.cut ++ f.behind.flatMap writeEscapedBytes))

/-- The complete records. -/
def complete (f : CutFile) : List (List UInt8) := f.before ++ f.behind

/-- The last byte that is left is the escape byte. -/
def EndsInEscape (bytes : List UInt8) (kept : Nat) : Prop :=
  ((bytes.flatMap escapeByte).take kept).getLast? = some (MAGIC_BYTE + 1)

instance (bytes : List UInt8) (kept : Nat) : Decidable (EndsInEscape bytes kept) := by
  rw [EndsInEscape]
  infer_instance

/-- The cut is at the end of the file and behind the escape byte, or in front of another record
while something other than a record is not directly in front of the cut one. -/
def Harmless (f : CutFile) : Prop :=
  ∀ bytes kept, f.cut = some (bytes, kept) →
    if f.behind = [] then EndsInEscape bytes kept else f.junk = [] ∨ f.before ≠ []

end CutFile

/-- The calls of `restoreLogItem` for records. -/
def callsFor (frames : List (List UInt8)) : List (List UInt8 × Int) :=
  frames.map fun bytes => (padded bytes, (bytes.length : Int))

/-- The calls of `restoreLogItem` are those for the records, and nothing is thrown. -/
def Recovers (es : List ReadEvent) (frames : List (List UInt8)) : Prop :=
  restoreCalls es = callsFor frames ∧ .indexOutOfBounds ∉ es

/-! ## Bytes without a magic byte -/

theorem magic_notMem_escapeByte (b : UInt8) : MAGIC_BYTE ∉ escapeByte b := by
  by_cases hmagic : b = MAGIC_BYTE
  · subst hmagic
    decide
  · by_cases hescape : b = MAGIC_BYTE + 1
    · subst hescape
      decide
    · rw [escapeByte, if_neg (not_or.2 ⟨hmagic, hescape⟩), List.mem_singleton]
      exact fun h => hmagic h.symm

theorem magic_notMem_flatMap (bytes : List UInt8) : MAGIC_BYTE ∉ bytes.flatMap escapeByte := by
  intro h
  obtain ⟨b, -, hb⟩ := List.mem_flatMap.1 h
  exact magic_notMem_escapeByte b hb

theorem length_le_flatMap_escapeByte (bytes : List UInt8) :
    bytes.length ≤ (bytes.flatMap escapeByte).length := by
  induction bytes with
  | nil => exact le_rfl
  | cons b bytes ih =>
      have hb : 1 ≤ (escapeByte b).length := by
        rw [escapeByte]
        split
        · exact Nat.le_succ 1
        · exact le_rfl
      rw [List.flatMap_cons, List.length_append, List.length_cons]
      omega

/-- The length of an item has no magic byte, but for the last byte. -/
theorem putInt_length {n : Nat} (h : n ≤ 16384) :
    ∃ before, MAGIC_BYTE ∉ before ∧ putInt (Int32.ofNat n) = before ++ [UInt8.ofNat n] := by
  refine ⟨[0, 0, UInt8.ofNat (n / 256)], ?_, ?_⟩
  · have hhigh : UInt8.ofNat (n / 256) ≠ MAGIC_BYTE := by
      intro heq
      have hnat := congrArg UInt8.toNat heq
      rw [UInt8.toNat_ofNat'] at hnat
      have hmagic : MAGIC_BYTE.toNat = 85 := rfl
      omega
    simp only [List.mem_cons, List.not_mem_nil, or_false, not_or]
    exact ⟨by decide, by decide, fun heq => hhigh heq.symm⟩
  · have hvalue : (Int32.ofNat n).toBitVec.toNat = n := by
      rw [Int32.toBitVec_ofNat', BitVec.toNat_ofNat]
      exact Nat.mod_eq_of_lt (by omega)
    have h₃ : n / 256 ^ 3 = 0 := Nat.div_eq_of_lt (by omega)
    have h₂ : n / 256 ^ 2 = 0 := Nat.div_eq_of_lt (by omega)
    rw [putInt, putBits, hvalue]
    simp only [bigEndian, h₃, h₂, pow_one, pow_zero, Nat.div_one]
    rfl

/-! ## The bytes of a cut record -/

/-- What the escape byte leaves behind is no escape byte. -/
theorem getLast?_flatMap_escapeByte (bytes : List UInt8) :
    (bytes.flatMap escapeByte).getLast? ≠ some (MAGIC_BYTE + 1) := by
  rcases bytes.eq_nil_or_concat with rfl | ⟨front, b, rfl⟩
  · exact fun h => Option.noConfusion rfl (heq_of_eq h)
  · have hne : escapeByte b ≠ [] := by
      rw [escapeByte]
      split
      · exact List.cons_ne_nil _ _
      · exact List.cons_ne_nil _ _
    rw [List.concat_eq_append, List.flatMap_append, List.flatMap_singleton,
      List.getLast?_append_of_ne_nil _ hne]
    by_cases hmagic : b = MAGIC_BYTE
    · subst hmagic
      decide
    · by_cases hescape : b = MAGIC_BYTE + 1
      · subst hescape
        decide
      · rw [escapeByte, if_neg (not_or.2 ⟨hmagic, hescape⟩)]
        exact fun h => hescape (Option.some.inj h)

/-- A cut is between two bytes of the item or behind the escape byte. -/
theorem take_flatMap_escapeByte {bytes : List UInt8} :
    ∀ kept, kept < (bytes.flatMap escapeByte).length →
      ∃ front b back, bytes = front ++ b :: back ∧
        ((bytes.flatMap escapeByte).take kept = front.flatMap escapeByte ∨
          (bytes.flatMap escapeByte).take kept = front.flatMap escapeByte ++ [MAGIC_BYTE + 1]) := by
  induction bytes with
  | nil => exact fun _ h => absurd h (Nat.not_lt_zero _)
  | cons b bytes ih =>
      intro kept h
      rw [List.flatMap_cons] at h ⊢
      by_cases hmore : (escapeByte b).length ≤ kept
      · rw [List.length_append] at h
        obtain ⟨front, c, back, rfl, htake⟩ :=
          ih (kept - (escapeByte b).length) (by omega)
        refine ⟨b :: front, c, back, rfl, ?_⟩
        rw [List.take_append, List.take_of_length_le hmore, List.flatMap_cons, List.append_assoc]
        rcases htake with htake | htake
        · exact Or.inl (by rw [htake])
        · exact Or.inr (by rw [htake])
      · refine ⟨[], b, bytes, rfl, ?_⟩
        rw [List.take_append_of_le_length (by omega), List.flatMap_nil, List.nil_append]
        -- nothing is left of the byte, or the escape byte in front of it
        by_cases hnone : kept = 0
        · exact Or.inl (by rw [hnone, List.take_zero])
        · right
          by_cases hescape : b = MAGIC_BYTE ∨ b = MAGIC_BYTE + 1
          · rw [escapeByte, if_pos hescape] at hmore ⊢
            have hone : kept = 1 := by
              rw [List.length_cons, List.length_singleton] at hmore
              omega
            rw [hone]
            rfl
          · rw [escapeByte, if_neg hescape, List.length_singleton] at hmore
            omega

theorem readEscaped_magic (pos : Nat) (rest : List UInt8) :
    ∃ message, readEscaped pos (MAGIC_BYTE :: rest) = (.error message, rest) := by
  rw [readEscaped, nextByte]
  dsimp only
  rw [if_pos rfl]
  exact ⟨_, rfl⟩

/-- The escape byte with something else than 0 or 1 behind it, or with nothing. -/
theorem readEscaped_escape (pos : Nat) (rest : List UInt8)
    (h₀ : (nextByte rest).1 ≠ 0) (h₁ : (nextByte rest).1 ≠ 1) :
    ∃ message,
      readEscaped pos ((MAGIC_BYTE + 1) :: rest) = (.error message, (nextByte rest).2) := by
  have hother : MAGIC_BYTE + 1 ≠ MAGIC_BYTE := by decide
  rw [readEscaped, nextByte]
  dsimp only
  rw [if_neg hother, if_pos rfl, if_neg h₀, if_neg h₁]
  exact ⟨_, rfl⟩

theorem readItemBytes_error {todo pos : Nat} {logFile rest bytes : List UInt8} {message : Text}
    (hpos : bytes.length = pos) (h : readEscaped pos logFile = (.error message, rest)) :
    readItemBytes (todo + 1) logFile bytes = (.aborted message, rest) := by
  rw [readItemBytes, hpos, h]

/-- Behind the end of the file there are more bytes. -/
theorem readItemBytes_eof (todo : Nat) : ∀ bytes : List UInt8, bytes.length + todo ≤ 16384 →
    readItemBytes todo [] bytes = (.read (bytes ++ List.replicate todo 0xFF), []) := by
  induction todo with
  | zero =>
      intro bytes _
      rw [List.replicate_zero, List.append_nil]
      rfl
  | succ todo ih =>
      intro bytes h
      have hbyte : readEscaped bytes.length [] = (.ok 0xFF, []) := rfl
      rw [readItemBytes, hbyte]
      dsimp only
      rw [if_pos (by omega), ih (bytes ++ [0xFF]) (by
        rw [List.length_append, List.length_singleton]
        omega), List.replicate_succ, List.append_assoc, List.singleton_append]

/-- **A cut record in front of other bytes.** It is given up if a magic byte follows, with what
follows that byte still to be read; at the end of the file, it is given up behind the escape byte,
and else read to its length. -/
theorem readItemBytes_cut {bytes : List UInt8} {kept : Nat} (hsize : bytes.length ≤ 16384)
    (hkept : kept < (bytes.flatMap escapeByte).length) :
    (∀ rest, ∃ message, readItemBytes bytes.length
        ((bytes.flatMap escapeByte).take kept ++ MAGIC_BYTE :: rest) [] =
          (.aborted message, rest)) ∧
      if CutFile.EndsInEscape bytes kept then
        ∃ message, readItemBytes bytes.length ((bytes.flatMap escapeByte).take kept) [] =
          (.aborted message, [])
      else
        ∃ read, readItemBytes bytes.length ((bytes.flatMap escapeByte).take kept) [] =
          (.read read, []) := by
  obtain ⟨front, b, back, hbytes, htake⟩ := take_flatMap_escapeByte kept hkept
  have hlength : bytes.length = front.length + (back.length + 1) := by
    rw [hbytes, List.length_append, List.length_cons]
  have hfront : ∀ rest, readItemBytes bytes.length (front.flatMap escapeByte ++ rest) [] =
      readItemBytes (back.length + 1) rest front := by
    intro rest
    rw [hlength, readItemBytes_append _ _ _ _ (by rw [List.length_nil]; omega), List.nil_append]
  rcases htake with htake | htake
  · -- between two bytes
    have hends : ¬ CutFile.EndsInEscape bytes kept := by
      rw [CutFile.EndsInEscape, htake]
      exact getLast?_flatMap_escapeByte front
    refine ⟨fun rest => ?_, ?_⟩
    · obtain ⟨message, hmessage⟩ := readEscaped_magic front.length rest
      exact ⟨message, by rw [htake, hfront, readItemBytes_error rfl hmessage]⟩
    · have heof := hfront []
      rw [List.append_nil] at heof
      rw [if_neg hends, htake, heof, readItemBytes_eof _ _ (by omega)]
      exact ⟨_, rfl⟩
  · -- behind the escape byte
    have hends : CutFile.EndsInEscape bytes kept := by
      rw [CutFile.EndsInEscape, htake, List.getLast?_append_of_ne_nil _ (List.cons_ne_nil _ _)]
      rfl
    refine ⟨fun rest => ?_, ?_⟩
    · obtain ⟨message, hmessage⟩ := readEscaped_escape front.length (MAGIC_BYTE :: rest)
        (show MAGIC_BYTE ≠ 0 by decide) (show MAGIC_BYTE ≠ 1 by decide)
      exact ⟨message, by
        rw [htake, List.append_assoc, hfront, List.singleton_append,
          readItemBytes_error rfl hmessage, nextByte]⟩
    · obtain ⟨message, hmessage⟩ := readEscaped_escape front.length []
        (by decide) (by decide)
      rw [if_pos hends, htake, hfront, readItemBytes_error rfl hmessage]
      exact ⟨_, rfl⟩

/-! ## Bytes in front of the records -/

theorem magic_cons_flatMap {frames : List (List UInt8)} (h : frames ≠ []) :
    ∃ tail, frames.flatMap writeEscapedBytes = MAGIC_BYTE :: tail := by
  cases frames with
  | nil => exact absurd rfl h
  | cons bytes frames => exact ⟨_, rfl⟩

section Search

variable {buf : Nat → UInt8} {file : List UInt8}

/-- **What the search finds** is the first magic byte. -/
theorem findMagic_found (todo : Nat) : ∀ skipped buf, skipped + 5 + todo = file.length →
    Holds buf file skipped → ∀ {found : Nat} {buf' : Nat → UInt8} {logFile : List UInt8},
      findMagic buf skipped (file.drop (skipped + 5)) = (found, some (buf', logFile)) →
        Holds buf' file found ∧ found + 5 ≤ file.length ∧ logFile = file.drop (found + 5) ∧
          file.getD found 0 = MAGIC_BYTE ∧
          ∀ i, skipped ≤ i → i < found → file.getD i 0 ≠ MAGIC_BYTE := by
  induction todo with
  | zero =>
      intro skipped buf hlength hbuf found buf' logFile h
      by_cases hmagic : buf skipped = MAGIC_BYTE
      · rw [findMagic_here hmagic] at h
        cases h
        exact ⟨hbuf, by omega, rfl, by rw [← hbuf _ (by omega), hmagic],
          fun i h₁ h₂ => absurd h₂ (Nat.not_lt.2 h₁)⟩
      · rw [List.drop_of_length_le (by omega), findMagic, if_neg hmagic] at h
        cases h
  | succ todo ih =>
      intro skipped buf hlength hbuf found buf' logFile h
      by_cases hmagic : buf skipped = MAGIC_BYTE
      · rw [findMagic_here hmagic] at h
        cases h
        exact ⟨hbuf, by omega, rfl, by rw [← hbuf _ (by omega), hmagic],
          fun i h₁ h₂ => absurd h₂ (Nat.not_lt.2 h₁)⟩
      · by_cases hroom : skipped + 11 ≤ 16384
        · obtain ⟨buf₁, hbuf₁, hnext⟩ := findMagic_next hbuf hmagic (by omega) hroom
          rw [hnext] at h
          obtain ⟨hholds, hfound, hlog, hbyte, hfirst⟩ := ih (skipped + 1) buf₁ (by omega) hbuf₁ h
          refine ⟨hholds, hfound, hlog, hbyte, fun i h₁ h₂ => ?_⟩
          by_cases hhere : i = skipped
          · rw [hhere, ← hbuf _ (by omega)]
            exact hmagic
          · exact hfirst i (by omega) h₂
        · -- the buffer is too short to go on
          have hlt : skipped + 5 < file.length := by omega
          rw [List.drop_eq_getElem_cons hlt, findMagic, if_neg hmagic, if_pos (by omega)] at h
          cases h

/-- Bytes without a magic byte are skipped, or the reading ends among them. -/
theorem findMagic_plain {junk tail : List UInt8} (hjunk : MAGIC_BYTE ∉ junk)
    (htail : tail = [] ∨ tail.head? = some MAGIC_BYTE) (r : Reader)
    (hfile : r.logFile = junk ++ tail) (hlength : 5 ≤ r.logFile.length) :
    (∃ skipped, findMagic r.atHead 0 (r.logFile.drop 5) = (skipped, none)) ∨
      ∃ buf, findMagic r.atHead 0 (r.logFile.drop 5) =
          (junk.length, some (buf, r.logFile.drop (junk.length + 5))) ∧
        tail ≠ [] ∧ Holds buf r.logFile junk.length := by
  cases hsearch : findMagic r.atHead 0 (r.logFile.drop 5) with
  | mk found next =>
    cases next with
    | none => exact Or.inl ⟨found, rfl⟩
    | some next =>
        obtain ⟨buf, logFile⟩ := next
        obtain ⟨hbuf, hfound, rfl, hbyte, hfirst⟩ :=
          findMagic_found (r.logFile.length - 5) 0 r.atHead (by omega)
            (holds_atHead r hlength) hsearch
        have hat : found = junk.length ∧ tail ≠ [] := by
          rw [hfile] at hbyte hfirst hfound
          have hnot : ¬ found < junk.length := by
            intro hlt
            rw [List.getD_append _ _ _ _ hlt, List.getD_eq_getElem _ _ hlt] at hbyte
            exact hjunk (hbyte ▸ List.getElem_mem hlt)
          rw [List.length_append] at hfound
          have hne : tail ≠ [] := by
            rintro rfl
            rw [List.length_nil] at hfound
            omega
          refine ⟨?_, hne⟩
          by_contra hother
          refine hfirst junk.length (Nat.zero_le _) (by omega) ?_
          rw [List.getD_append_right _ _ _ _ le_rfl, Nat.sub_self]
          rcases htail with htail | htail
          · exact absurd htail hne
          · rw [List.getD_eq_getElem?_getD, ← List.head?_eq_getElem?, htail]
            rfl
        obtain ⟨rfl, hne⟩ := hat
        exact Or.inr ⟨buf, rfl, hne, hbuf⟩

end Search

namespace Reader

/-- **Behind bytes without a magic byte** all the records are read, or none. -/
theorem restoreCalls_plain {junk : List UInt8} (hjunk : MAGIC_BYTE ∉ junk)
    {frames : List (List UInt8)} (hsize : ∀ bytes ∈ frames, bytes.length ≤ 16384)
    (buf : Nat → UInt8) (itemsRead : Nat)
    (hread : itemsRead + frames.length ≤ 2 * MAXLOGENTRIES) :
    restoreCalls (events ⟨buf, junk ++ frames.flatMap writeEscapedBytes, itemsRead⟩) = [] ∨
      restoreCalls (events ⟨buf, junk ++ frames.flatMap writeEscapedBytes, itemsRead⟩) =
        callsFor frames := by
  by_cases hlength : 5 ≤ (junk ++ frames.flatMap writeEscapedBytes).length
  · have htail : frames.flatMap writeEscapedBytes = [] ∨
        (frames.flatMap writeEscapedBytes).head? = some MAGIC_BYTE := by
      cases frames with
      | nil => exact Or.inl rfl
      | cons bytes frames => exact Or.inr rfl
    -- the search for the magic byte gives up, or finds that of the first record
    rcases findMagic_plain hjunk htail ⟨buf, _, itemsRead⟩ rfl hlength with
      ⟨skipped, hnone⟩ | ⟨buf', hsome, hne, hbuf'⟩
    · obtain ⟨message, hevents⟩ := events_of_none hlength hnone
      exact Or.inl (by rw [hevents]; rfl)
    · right
      cases frames with
      | nil => exact absurd rfl hne
      | cons bytes frames =>
          obtain ⟨hbytes, hframes⟩ := List.forall_mem_cons.1 hsize
          rw [List.length_cons] at hread
          have hfile : junk ++ (bytes :: frames).flatMap writeEscapedBytes =
              junk ++ MAGIC_BYTE :: (putInt (Int32.ofNat bytes.length) ++
                (bytes.flatMap escapeByte ++ frames.flatMap writeEscapedBytes)) := by
            rw [List.flatMap_cons, writeEscapedBytes]
            simp only [List.append_assoc, List.cons_append]
          have hdrop : (junk ++ (bytes :: frames).flatMap writeEscapedBytes).drop
              (junk.length + 5) = bytes.flatMap escapeByte ++ frames.flatMap writeEscapedBytes := by
            have hhead : (junk ++ MAGIC_BYTE :: putInt (Int32.ofNat bytes.length)).length =
                junk.length + 5 := by
              rw [List.length_append, List.length_cons, length_putInt]
            rw [hfile, ← List.cons_append, ← List.append_assoc, ← hhead, List.drop_left]
          dsimp only at hsome hbuf'
          rw [hdrop] at hsome
          rw [hfile] at hbuf'
          obtain ⟨lines, hlines, -, -, hevents⟩ := events_of_some hlength hsome
          -- from the first record on, all of them are read
          obtain ⟨buf₁, hrest⟩ := events_frames hframes [] buf' (itemsRead + 1) (by omega)
          have hend := events_of_length_lt (r := ⟨buf₁, [], itemsRead + 1 + frames.length⟩)
            (Nat.zero_lt_succ 4)
          rw [List.append_nil] at hrest
          rw [hevents, intAt_of_holds hbuf', toInt_length hbytes,
            itemEvents_flatMap hbytes (by dsimp only; omega), hrest, hend, restoreCalls_append,
            hlines, List.nil_append]
          have hcons : ∀ es : List ReadEvent,
              restoreCalls (.restoreLogItem (padded bytes) bytes.length :: es) =
                (padded bytes, (bytes.length : Int)) :: restoreCalls es := fun _ => rfl
          rw [hcons, restoreCalls_append, restoreCalls_map]
          exact congrArg (List.cons _) (List.append_nil _)
  · exact Or.inl (by rw [events_of_length_lt (by dsimp only; omega)]; rfl)

end Reader

/-! ## A record whose magic byte is lost -/

section Lost

variable {tail : List UInt8}

/-- One byte that is read is in front of the records, or it is the magic byte of the first one. -/
theorem readEscaped_plain (pos : Nat) {v : List UInt8} (hv : MAGIC_BYTE ∉ v)
    (htail : tail = [] ∨ tail.head? = some MAGIC_BYTE) :
    (∃ v', MAGIC_BYTE ∉ v' ∧ (readEscaped pos (v ++ tail)).2 = v' ++ tail) ∨
      ∃ message rest, tail = MAGIC_BYTE :: rest ∧
        readEscaped pos (v ++ tail) = (.error message, rest) := by
  cases v with
  -- the byte that is read is the first one of the records
  | nil =>
      rw [List.nil_append]
      rcases htail with rfl | htail
      · exact Or.inl ⟨[], List.not_mem_nil, rfl⟩
      · obtain ⟨rest, rfl⟩ := List.head?_eq_some_iff.1 htail
        obtain ⟨message, hmessage⟩ := readEscaped_magic pos rest
        exact Or.inr ⟨message, rest, rfl, hmessage⟩
  | cons b v =>
      rw [List.mem_cons, not_or] at hv
      obtain ⟨hb, hv⟩ := hv
      rw [List.cons_append]
      by_cases hescape : b = MAGIC_BYTE + 1
      -- an escape byte, whose code may be the magic byte that follows
      · subst hescape
        cases v with
        | nil =>
            rw [List.nil_append]
            rcases htail with rfl | htail
            · exact Or.inl ⟨[], List.not_mem_nil, rfl⟩
            · obtain ⟨rest, rfl⟩ := List.head?_eq_some_iff.1 htail
              obtain ⟨message, hmessage⟩ := readEscaped_escape pos (MAGIC_BYTE :: rest)
                (show MAGIC_BYTE ≠ 0 by decide) (show MAGIC_BYTE ≠ 1 by decide)
              exact Or.inr ⟨message, rest, rfl, hmessage⟩
        | cons c v =>
            refine Or.inl ⟨v, fun h => hv (List.mem_cons_of_mem c h), ?_⟩
            rw [readEscaped, nextByte]
            dsimp only
            rw [if_neg (by decide), if_pos rfl, List.cons_append, nextByte]
            dsimp only
            split
            · rfl
            · split
              · rfl
              · rfl
      · refine Or.inl ⟨v, hv, ?_⟩
        rw [readEscaped, nextByte]
        dsimp only
        rw [if_neg (fun h => hb h.symm), if_neg hescape]

/-- The bytes of an item, wherever they begin, are in front of the records, or the item is given up
at the magic byte of the first one. -/
theorem readItemBytes_plain (htail : tail = [] ∨ tail.head? = some MAGIC_BYTE) (todo : Nat) :
    ∀ v bytes : List UInt8, MAGIC_BYTE ∉ v →
      (∃ v', MAGIC_BYTE ∉ v' ∧ (readItemBytes todo (v ++ tail) bytes).2 = v' ++ tail) ∨
        ∃ message rest, tail = MAGIC_BYTE :: rest ∧
          readItemBytes todo (v ++ tail) bytes = (.aborted message, rest) := by
  induction todo with
  | zero => exact fun v bytes hv => Or.inl ⟨v, hv, rfl⟩
  | succ todo ih =>
      intro v bytes hv
      rcases readEscaped_plain bytes.length hv htail with
        ⟨v', hv', hleft⟩ | ⟨message, rest, htail', herror⟩
      · cases hbyte : readEscaped bytes.length (v ++ tail) with
        | mk b logFile =>
          rw [hbyte] at hleft
          dsimp only at hleft
          subst hleft
          rw [readItemBytes, hbyte]
          cases b with
          | error message => exact Or.inl ⟨v', hv', rfl⟩
          | ok b =>
              dsimp only
              split
              · exact ih v' (bytes ++ [b]) hv'
              · exact Or.inl ⟨v', hv', rfl⟩
      · exact Or.inr ⟨message, rest, htail', readItemBytes_error rfl herror⟩

theorem length_callsFor (frames : List (List UInt8)) :
    (callsFor frames).length = frames.length :=
  List.length_map _

/-- Fewer calls than records are not the calls for the records. -/
theorem ne_callsFor_of_le {calls : List (List UInt8 × Int)} {frames : List (List UInt8)}
    (h : calls.length ≤ frames.length) (bytes : List UInt8) :
    calls.length ≤ (bytes :: frames).length ∧ calls ≠ callsFor (bytes :: frames) := by
  rw [List.length_cons]
  refine ⟨h.trans (Nat.le_succ _), ?_⟩
  intro heq
  have hlength := congrArg List.length heq
  rw [length_callsFor, List.length_cons] at hlength
  omega

/-- An item that begins inside a record is read with the length that its head says, and then at most
the records behind it, or it is given up. -/
theorem restoreCalls_inside {frames : List (List UInt8)}
    (hsize : ∀ bytes ∈ frames, bytes.length ≤ 16384) {v : List UInt8} (hv : MAGIC_BYTE ∉ v)
    {buf : Nat → UInt8} (hbuf : buf 0 ≠ MAGIC_BYTE) {itemsRead : Nat}
    (hread : itemsRead + 1 + frames.length ≤ 2 * MAXLOGENTRIES) (len : Int)
    (hlost : ∀ rest, frames.flatMap writeEscapedBytes = MAGIC_BYTE :: rest →
      (restoreCalls (Reader.events ⟨buf, buf 0 :: rest, itemsRead⟩)).length ≤ frames.length) :
    (restoreCalls (Reader.itemEvents ⟨buf, v ++ frames.flatMap writeEscapedBytes, itemsRead⟩
        len)).length ≤ frames.length ∨
      ∃ buf2 calls, calls.length ≤ frames.length ∧
        restoreCalls (Reader.itemEvents ⟨buf, v ++ frames.flatMap writeEscapedBytes, itemsRead⟩
          len) = (buf2, len) :: calls := by
  -- from bytes without a magic byte on, at most the records are read
  have hplain : ∀ junk n, MAGIC_BYTE ∉ junk → n ≤ itemsRead + 1 →
      (restoreCalls (Reader.events ⟨buf, junk ++ frames.flatMap writeEscapedBytes, n⟩)).length ≤
        frames.length := by
    intro junk n hjunk hn
    rcases Reader.restoreCalls_plain hjunk hsize buf n (by omega) with h | h
    · rw [h]
      exact Nat.zero_le _
    · rw [h]
      exact le_of_eq (length_callsFor frames)
  have htail : frames.flatMap writeEscapedBytes = [] ∨
      (frames.flatMap writeEscapedBytes).head? = some MAGIC_BYTE := by
    cases frames with
    | nil => exact Or.inl rfl
    | cons bytes frames => exact Or.inr rfl
  have hdebug : ∀ (message : Text) es,
      restoreCalls (.logDebug message :: es) = restoreCalls es := fun _ _ => rfl
  rw [Reader.itemEvents]
  dsimp only
  rcases readItemBytes_plain htail len.toNat v [] hv with
    ⟨v', hv', hleft⟩ | ⟨message, rest, hrest, haborted⟩
  · cases hitem : readItemBytes len.toNat (v ++ frames.flatMap writeEscapedBytes) [] with
    | mk item logFile =>
      rw [hitem] at hleft
      dsimp only at hleft
      subst hleft
      cases item with
      -- the buffer is too short for the length that was read: nothing more is restored
      | indexOutOfBounds => exact Or.inl (Nat.zero_le _)
      -- a byte of the item was no escape code
      | aborted message =>
          refine Or.inl ?_
          dsimp only
          rw [hdebug, ← List.cons_append]
          refine hplain _ _ ?_ (Nat.le_succ _)
          rw [List.mem_cons, not_or]
          exact ⟨fun h => hbuf h.symm, hv'⟩
      -- the item is read from the bytes inside, and the rest has no magic byte
      | read bytes =>
          have hfew : ¬ itemsRead + 1 > 2 * MAXLOGENTRIES := by omega
          refine Or.inr ⟨padded bytes, _, hplain v' _ hv' le_rfl, ?_⟩
          dsimp only
          rw [if_neg hfew]
          rfl
  -- the item runs into the next record and is given up at its magic byte
  · rw [haborted]
    refine Or.inl ?_
    dsimp only
    rw [hdebug]
    exact hlost rest hrest

/-- Where the length of a record ends in a magic byte, the four bytes behind it are another
length. -/
theorem exists_inner_head {bytes : List UInt8} (hbytes : bytes.length ≤ 16384)
    (hlast : UInt8.ofNat bytes.length = MAGIC_BYTE) :
    ∃ len v, bytes.flatMap escapeByte = putInt len ++ v ∧ MAGIC_BYTE ∉ v ∧
      len.toInt ≠ bytes.length := by
  have hplain := magic_notMem_flatMap bytes
  have hlong : 85 ≤ bytes.length := by
    have hnat := congrArg UInt8.toNat hlast
    rw [UInt8.toNat_ofNat'] at hnat
    have hmagic : MAGIC_BYTE.toNat = 85 := rfl
    omega
  have hescaped := length_le_flatMap_escapeByte bytes
  obtain ⟨len, hlen⟩ := exists_putInt ((bytes.flatMap escapeByte).take 4) (by
    rw [List.length_take]
    omega)
  have hsplit : bytes.flatMap escapeByte = putInt len ++ (bytes.flatMap escapeByte).drop 4 := by
    rw [hlen, List.take_append_drop]
  rw [hsplit, List.mem_append, not_or] at hplain
  refine ⟨len, _, hsplit, hplain.2, fun heq => hplain.1 ?_⟩
  -- equal numbers would have equal last bytes
  obtain ⟨before, -, hput⟩ := putInt_length hbytes
  have hsame : len = Int32.ofNat bytes.length := by
    apply Int32.toInt_inj.1
    rw [heq, Reader.toInt_length hbytes]
  rw [hsame, hput, hlast]
  exact List.mem_append_right _ (List.mem_singleton_self _)

/-- **A record whose magic byte was taken for another byte is not read.** Its length may have a
magic byte as its last byte; then an item is read that begins inside the record, with another
length. -/
theorem restoreCalls_lost {frames : List (List UInt8)}
    (hsize : ∀ bytes ∈ frames, bytes.length ≤ 16384) :
    ∀ {rest : List UInt8}, frames.flatMap writeEscapedBytes = MAGIC_BYTE :: rest →
      ∀ (buf : Nat → UInt8) {x : UInt8} {itemsRead : Nat}, x ≠ MAGIC_BYTE →
        itemsRead + frames.length ≤ 2 * MAXLOGENTRIES →
          (restoreCalls (Reader.events ⟨buf, x :: rest, itemsRead⟩)).length ≤ frames.length ∧
            restoreCalls (Reader.events ⟨buf, x :: rest, itemsRead⟩) ≠ callsFor frames := by
  -- induction on the records: the reading inside one may lose the next one's magic byte as well
  induction frames with
  | nil => exact fun h => absurd h.symm (List.cons_ne_nil _ _)
  | cons bytes frames ih =>
      intro rest hrest buf x itemsRead hx hread
      obtain ⟨hbytes, hframes⟩ := List.forall_mem_cons.1 hsize
      rw [List.length_cons] at hread
      obtain ⟨before, hbefore, hput⟩ := putInt_length hbytes
      have hplain := magic_notMem_flatMap bytes
      obtain rfl : rest = putInt (Int32.ofNat bytes.length) ++
          (bytes.flatMap escapeByte ++ frames.flatMap writeEscapedBytes) := by
        rw [List.flatMap_cons, writeEscapedBytes, List.append_assoc, List.cons_append] at hrest
        exact (List.cons.inj hrest).2.symm
      by_cases hlast : UInt8.ofNat bytes.length = MAGIC_BYTE
      · -- an item may be read from the last byte of the length on
        obtain ⟨len, v, hsplit, hv, hother⟩ := exists_inner_head hbytes hlast
        have hfile : x :: (putInt (Int32.ofNat bytes.length) ++
            (bytes.flatMap escapeByte ++ frames.flatMap writeEscapedBytes)) =
            (x :: before) ++ MAGIC_BYTE :: (putInt len ++
              (v ++ frames.flatMap writeEscapedBytes)) := by
          rw [hput, hlast, hsplit]
          simp only [List.append_assoc, List.cons_append, List.nil_append]
        have hshort : before.length = 3 := by
          have := congrArg List.length hput
          rw [length_putInt, List.length_append, List.length_singleton] at this
          omega
        obtain ⟨lines, buf', hlines, -, -, hbuf', hevents⟩ := Reader.events_head ⟨buf, _, itemsRead⟩
          hfile
          (by
            rw [List.mem_cons, not_or]
            exact ⟨fun h => hx h.symm, hbefore⟩)
          (by rw [List.length_cons]; omega)
        have hfirst : buf' 0 = x := hbuf' 0 (by omega)
        rw [hevents, restoreCalls_append, hlines, List.nil_append]
        have hlost : ∀ rest, frames.flatMap writeEscapedBytes = MAGIC_BYTE :: rest →
            (restoreCalls (Reader.events ⟨buf', buf' 0 :: rest, itemsRead⟩)).length ≤
              frames.length := by
          intro rest hrest
          rw [hfirst]
          exact (ih hframes hrest buf' hx (by omega)).1
        rcases restoreCalls_inside hframes hv (hfirst ▸ hx) (by omega) len.toInt hlost with
          hless | ⟨buf2, calls, hless, hcalls⟩
        · exact ne_callsFor_of_le hless bytes
        · rw [hcalls, List.length_cons, List.length_cons]
          refine ⟨Nat.succ_le_succ hless, fun heq => ?_⟩
          exact hother (congrArg Prod.snd (List.cons.inj heq).1)
      · -- no magic byte in front of the next record
        have hjunk : MAGIC_BYTE ∉ x :: (putInt (Int32.ofNat bytes.length) ++
            bytes.flatMap escapeByte) := by
          rw [hput]
          simp only [List.mem_cons, List.mem_append, List.not_mem_nil, or_false, not_or]
          exact ⟨fun h => hx h.symm, ⟨hbefore, fun h => hlast h.symm⟩, hplain⟩
        have hcalls := Reader.restoreCalls_plain hjunk hframes buf itemsRead (by omega)
        rw [List.cons_append, List.append_assoc] at hcalls
        apply ne_callsFor_of_le
        rcases hcalls with hnone | hall
        · rw [hnone]
          exact Nat.zero_le _
        · rw [hall, length_callsFor]

end Lost

/-! ## Recovery -/

section Recovers

variable {es lines : List ReadEvent} {frames behind : List (List UInt8)}

theorem recovers_append (hcalls : restoreCalls lines = []) (hthrown : .indexOutOfBounds ∉ lines) :
    Recovers (lines ++ es) frames ↔ Recovers es frames := by
  rw [Recovers, Recovers, restoreCalls_append, hcalls, List.nil_append, List.mem_append, not_or,
    and_iff_right hthrown]

theorem recovers_debug (message : Text) :
    Recovers (.logDebug message :: es) frames ↔ Recovers es frames := by
  have hline : .indexOutOfBounds ∉ [ReadEvent.logDebug message] := by simp
  exact recovers_append rfl hline

theorem recovers_map_append :
    Recovers (frames.map (fun bytes => .restoreLogItem (padded bytes) bytes.length) ++ es)
        (frames ++ behind) ↔ Recovers es behind := by
  rw [Recovers, Recovers, restoreCalls_append, restoreCalls_map, callsFor, List.map_append,
    List.append_cancel_left_eq, List.mem_append, not_or, callsFor]
  refine and_congr_right fun _ => and_iff_right ?_
  simp

end Recovers

namespace Reader

variable {junk : List UInt8} {frames : List (List UInt8)} {itemsRead : Nat}

/-- Records are read behind other bytes as they are alone. -/
theorem events_junk (hjunk : MAGIC_BYTE ∉ junk) (hlength : junk.length ≤ 1000)
    (hsize : ∀ bytes ∈ frames, bytes.length ≤ 16384) (hne : frames ≠ []) (rest : List UInt8)
    (buf : Nat → UInt8) (itemsRead : Nat)
    (hread : itemsRead + frames.length ≤ 2 * MAXLOGENTRIES) :
    ∃ lines buf', restoreCalls lines = [] ∧ .indexOutOfBounds ∉ lines ∧
      events ⟨buf, junk ++ (frames.flatMap writeEscapedBytes ++ rest), itemsRead⟩ =
        lines ++ (frames.map (fun bytes => .restoreLogItem (padded bytes) bytes.length) ++
          events ⟨buf', rest, itemsRead + frames.length⟩) := by
  cases frames with
  | nil => exact absurd rfl hne
  | cons bytes frames =>
      obtain ⟨hbytes, hframes⟩ := List.forall_mem_cons.1 hsize
      rw [List.length_cons] at hread
      have hfile : junk ++ ((bytes :: frames).flatMap writeEscapedBytes ++ rest) =
          junk ++ MAGIC_BYTE :: (putInt (Int32.ofNat bytes.length) ++
            (bytes.flatMap escapeByte ++ (frames.flatMap writeEscapedBytes ++ rest))) := by
        rw [List.flatMap_cons, writeEscapedBytes]
        simp only [List.append_assoc, List.cons_append]
      obtain ⟨lines, buf₁, hcalls, hthrown, -, -, hevents⟩ :=
        events_head ⟨buf, _, itemsRead⟩ hfile hjunk (by omega)
      obtain ⟨buf', hrest⟩ := events_frames hframes rest buf₁ (itemsRead + 1) (by omega)
      refine ⟨lines, buf', hcalls, hthrown, ?_⟩
      rw [hevents, toInt_length hbytes, itemEvents_flatMap hbytes (by dsimp only; omega), hrest,
        List.map_cons, List.length_cons, Nat.add_right_comm, Nat.add_assoc]
      rfl

/-- **Records that are complete** are all read. -/
theorem recovers_frames (hjunk : MAGIC_BYTE ∉ junk) (hlength : junk.length ≤ 1000)
    (hsize : ∀ bytes ∈ frames, bytes.length ≤ 16384) (buf : Nat → UInt8)
    (hread : itemsRead + frames.length ≤ 2 * MAXLOGENTRIES) :
    Recovers (events ⟨buf, junk ++ frames.flatMap writeEscapedBytes, itemsRead⟩) frames := by
  have hend : ∀ (r : Reader), Recovers [.reread_log r.itemsRead] [] := fun r => ⟨rfl, by simp⟩
  by_cases hne : frames = []
  · subst hne
    rw [List.flatMap_nil, List.append_nil]
    by_cases hshort : junk.length < 5
    · rw [events_of_length_lt hshort]
      exact hend _
    · rcases findMagic_plain hjunk (Or.inl rfl) ⟨buf, junk, itemsRead⟩ (List.append_nil _).symm
        (by dsimp only; omega) with ⟨skipped, hnone⟩ | ⟨_, _, htail, _⟩
      · obtain ⟨message, hevents⟩ := events_of_none (by dsimp only; omega) hnone
        rw [hevents, recovers_debug]
        exact hend _
      · exact absurd rfl htail
  · obtain ⟨lines, buf', hcalls, hthrown, hevents⟩ :=
      events_junk hjunk hlength hsize hne [] buf itemsRead hread
    rw [List.append_nil] at hevents
    have hmap := @recovers_map_append (events ⟨buf', [], itemsRead + frames.length⟩) frames []
    rw [List.append_nil] at hmap
    have hlast := events_of_length_lt (r := ⟨buf', [], itemsRead + frames.length⟩)
      (Nat.zero_lt_succ 4)
    rw [hevents, recovers_append hcalls hthrown, hmap, hlast]
    exact hend _

/-- **The record that was cut.** -/
theorem recovers_cut {bytes : List UInt8} {kept : Nat} (hbytes : bytes.length ≤ 16384)
    (hkept : kept < (bytes.flatMap escapeByte).length)
    (hsize : ∀ bytes ∈ frames, bytes.length ≤ 16384) (buf : Nat → UInt8)
    (hread : itemsRead + frames.length ≤ 2 * MAXLOGENTRIES) :
    Recovers (itemEvents ⟨buf, (bytes.flatMap escapeByte).take kept ++
        frames.flatMap writeEscapedBytes, itemsRead⟩ bytes.length) frames ↔
      if frames = [] then CutFile.EndsInEscape bytes kept else buf 0 = MAGIC_BYTE := by
  obtain ⟨hmagic, heof⟩ := readItemBytes_cut hbytes hkept
  rw [itemEvents]
  dsimp only
  rw [Int.toNat_natCast]
  by_cases hne : frames = []
  · subst hne
    rw [if_pos rfl, List.flatMap_nil, List.append_nil]
    by_cases hends : CutFile.EndsInEscape bytes kept
    · rw [if_pos hends] at heof
      obtain ⟨message, heof⟩ := heof
      rw [heof]
      dsimp only
      rw [recovers_debug, events_of_length_lt (by dsimp only; rw [List.length_singleton]; omega)]
      exact iff_of_true ⟨rfl, by simp⟩ hends
    · rw [if_neg hends] at heof
      obtain ⟨read, heof⟩ := heof
      rw [heof]
      -- the cut record is handed to `restoreLogItem`
      refine iff_of_false (fun hrecovers => ?_) hends
      exact absurd hrecovers.1 (List.cons_ne_nil _ _)
  · rw [if_neg hne]
    obtain ⟨tail, htail⟩ := magic_cons_flatMap hne
    obtain ⟨message, haborted⟩ := hmagic tail
    rw [htail, haborted]
    dsimp only
    rw [recovers_debug]
    by_cases hfirst : buf 0 = MAGIC_BYTE
    · rw [hfirst, ← htail]
      have halone := recovers_frames List.not_mem_nil (Nat.zero_le _) hsize buf hread
      exact iff_of_true halone rfl
    · refine iff_of_false (fun hrecovers => ?_) hfirst
      exact (restoreCalls_lost hsize htail buf hfirst hread).2 hrecovers.1

/-- The reading gets to a head, with the first byte of the buffer being the magic byte if a record
was read before it or nothing else is in front of it. -/
theorem reach_head (hjunk : MAGIC_BYTE ∉ junk) (hlength : junk.length ≤ 1000)
    (hsize : ∀ bytes ∈ frames, bytes.length ≤ 16384) (hread : frames.length ≤ 2 * MAXLOGENTRIES)
    (len : Int32) (tail : List UInt8) (behind : List (List UInt8)) :
    ∃ buf, (buf 0 = MAGIC_BYTE ↔ junk = [] ∨ frames ≠ []) ∧
      (Recovers (readEvents (junk ++ (frames.flatMap writeEscapedBytes ++
          MAGIC_BYTE :: (putInt len ++ tail)))) (frames ++ behind) ↔
        Recovers (itemEvents ⟨buf, tail, frames.length⟩ len.toInt) behind) := by
  rw [readEvents]
  by_cases hne : frames = []
  · subst hne
    rw [List.flatMap_nil, List.nil_append, List.nil_append]
    obtain ⟨lines, buf, hcalls, hthrown, -, hbuf, hevents⟩ :=
      events_head ⟨fun _ => 0, junk ++ MAGIC_BYTE :: (putInt len ++ tail), 0⟩ rfl hjunk (by omega)
    refine ⟨buf, ?_, ?_⟩
    · rw [hbuf 0 (by omega), or_iff_left (not_not_intro rfl)]
      cases junk with
      | nil => exact iff_of_true rfl rfl
      | cons x junk =>
          refine iff_of_false (fun h => hjunk ?_) (List.cons_ne_nil _ _)
          have hx : x = MAGIC_BYTE := h
          rw [hx]
          exact List.mem_cons_self
    · rw [hevents, recovers_append hcalls hthrown]
      rfl
  · obtain ⟨lines, buf, hcalls, hthrown, hevents⟩ := events_junk hjunk hlength hsize hne
      (MAGIC_BYTE :: (putInt len ++ tail)) (fun _ => 0) 0 (by omega)
    obtain ⟨lines', buf', hcalls', hthrown', -, hbuf', hhead⟩ :=
      events_head ⟨buf, [] ++ MAGIC_BYTE :: (putInt len ++ tail), 0 + frames.length⟩ rfl
        List.not_mem_nil (by decide)
    rw [List.nil_append] at hhead
    refine ⟨buf', iff_of_true (hbuf' 0 (by omega)) (Or.inr hne), ?_⟩
    rw [hevents, recovers_append hcalls hthrown, recovers_map_append, hhead,
      recovers_append hcalls' hthrown', Nat.zero_add]

end Reader

/-- **When a cut record costs only itself.** The complete records are handed to `restoreLogItem`,
and nothing else is, exactly when the cut is a harmless one. -/
theorem recovers_iff (f : CutFile) : Recovers (readEvents f.file) f.complete ↔ f.Harmless := by
  obtain ⟨junk, before, cut, behind, hlength, hjunk, hsize, hinside, hcount⟩ := f
  have hmax : MAXLOGENTRIES = 1000 := rfl
  rw [CutFile.file, CutFile.complete, CutFile.Harmless]
  dsimp only
  cases cut with
  | none =>
      refine iff_of_true ?_ (fun bytes kept h => Option.noConfusion rfl (heq_of_eq h))
      rw [CutFile.cutRecord, List.nil_append, ← List.flatMap_append, readEvents]
      refine Reader.recovers_frames hjunk hlength hsize _ ?_
      rw [List.length_append]
      omega
  | some cut =>
      obtain ⟨bytes, kept⟩ := cut
      obtain ⟨hbytes, hkept⟩ := hinside bytes kept rfl
      rw [Option.isSome_some, if_pos rfl] at hcount
      have hrecord : CutFile.cutRecord (some (bytes, kept)) =
          MAGIC_BYTE :: (putInt (Int32.ofNat bytes.length) ++
            (bytes.flatMap escapeByte).take kept) := by
        have hhead : (MAGIC_BYTE :: putInt (Int32.ofNat bytes.length)).length = 5 := by
          rw [List.length_cons, length_putInt]
        rw [CutFile.cutRecord, writeEscapedBytes, List.take_append, hhead, Nat.add_sub_cancel_left,
          List.take_of_length_le (by omega), List.cons_append]
      obtain ⟨buf, hfirst, hreach⟩ := Reader.reach_head hjunk hlength
        (fun bytes h => hsize bytes (List.mem_append_left _ h)) (by omega)
        (Int32.ofNat bytes.length)
        ((bytes.flatMap escapeByte).take kept ++ behind.flatMap writeEscapedBytes) behind
      have hharmless : (∀ bytes' kept', some (bytes, kept) = some (bytes', kept') →
          if behind = [] then CutFile.EndsInEscape bytes' kept' else junk = [] ∨ before ≠ []) ↔
          if behind = [] then CutFile.EndsInEscape bytes kept else junk = [] ∨ before ≠ [] := by
        refine ⟨fun h => h bytes kept rfl, ?_⟩
        rintro h bytes' kept' heq
        obtain ⟨rfl, rfl⟩ := Prod.mk.inj (Option.some.inj heq)
        exact h
      rw [hharmless, hrecord, List.cons_append, List.append_assoc, hreach,
        Reader.toInt_length hbytes,
        Reader.recovers_cut hbytes hkept
          (fun bytes h => hsize bytes (List.mem_append_right _ h)) buf (by omega), hfirst]

/-- Something in front of a record that was cut, and a record behind it. -/
def lostRecord : CutFile :=
  { junk := [0x00]
    before := []
    cut := some ([0x41], 0)
    behind := [[0x42]]
    junk_length := by decide
    junk_plain := by decide
    size := by decide
    inside := fun bytes kept h => by
      obtain ⟨rfl, rfl⟩ := Prod.mk.inj (Option.some.inj h)
      decide
    count := by decide }

/-- A record that was cut at the end of the file. -/
def cutAtEnd : CutFile :=
  { junk := []
    before := []
    cut := some ([0x41], 0)
    behind := []
    junk_length := by decide
    junk_plain := by decide
    size := by decide
    inside := fun bytes kept h => by
      obtain ⟨rfl, rfl⟩ := Prod.mk.inj (Option.some.inj h)
      decide
    count := by decide }

/-- The record behind the cut one is lost, and at the end of the file `0xFF` is read in place of the
missing byte. -/
theorem recovers_counterexample :
    restoreCalls (readEvents lostRecord.file) = [] ∧
      (restoreCalls (readEvents cutAtEnd.file)).map
        (fun call => (call.1.take call.2.toNat, call.2)) = [([0xFF], 1)] ∧
      ¬ ∀ f : CutFile, Recovers (readEvents f.file) f.complete := by
  refine ⟨by decide +kernel, by decide +kernel, ?_⟩
  intro hall
  have hlost := (hall lostRecord).1
  revert hlost
  decide +kernel

end PortVpn.Log
