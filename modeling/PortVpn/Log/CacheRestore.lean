import Mathlib.Data.List.Forall2
import PortVpn.Log.ReadEvents

/-!
# Restoring the log

What `readCacheContents` makes of a file that `writeLogItemToDisk` wrote item by item. Every item
that can be verified is put in front of the ones before it, so that the log comes back in the
reverse order, with the levels that `LogItem.reread` gives it; of every other item only a line in
hexadecimal digits is left. `readCacheContents_iff` says for which logs nothing of this is to be
seen.
-/

set_option autoImplicit false

namespace PortVpn.Log

open PortVpn.Lib PortVpn.Lib.ByteBuffer

/-! ## The statement -/

/-- An item with the empty message for null. -/
def LogItem.identify (li : LogItem) : LogItem :=
  { li with mMessage := LogItem.nullIfEmpty li.mMessage }

/-- The log buffer holds the items in their order, and behind them only lines that were logged while
the file was read. -/
def Restored (items logbuffer : List LogItem) : Prop :=
  items.map LogItem.identify <+: logbuffer.map LogItem.identify

/-- The item is read as it was written. -/
structure LogItem.Keeps (li : LogItem) : Prop where
  level : li.mLevel = some .DEBUG
  array : li.mArgs ≠ some []
  few : li.args.length ≤ 30
  verified : LogItem.nullIfEmpty li.mMessage = none → li.mRessourceId ≠ 0

/-! ## The file -/

/-- The file is made of what was written for the items. -/
theorem exists_frames {items : List LogItem} :
    ∀ {before file : List UInt8}, items.foldlM writeLogItemToDisk before = some file →
      ∃ frames : List (List UInt8),
        List.Forall₂ (fun li bytes => LogItem.getMarschaledBytes li = some bytes) items frames ∧
          file = before ++ frames.flatMap writeEscapedBytes := by
  induction items with
  | nil =>
      intro before file h
      obtain rfl := Option.some.inj h
      exact ⟨[], .nil, (List.append_nil _).symm⟩
  | cons li items ih =>
      intro before file h
      rw [List.foldlM_cons] at h
      obtain ⟨next, hnext, hrest⟩ := Option.bind_eq_some_iff.1 h
      obtain ⟨bytes, hbytes, rfl⟩ := Option.map_eq_some_iff.1 hnext
      obtain ⟨frames, hframes, rfl⟩ := ih hrest
      refine ⟨bytes :: frames, .cons hbytes hframes, ?_⟩
      rw [List.flatMap_cons, List.append_assoc]

/-! ## One item -/

/-- The number of characters of an item's message. -/
def LogItem.messageLength (li : LogItem) : Nat := (li.mMessage.getD []).length

/-- An error that was logged in place of an item. -/
structure ReportOf (li report : LogItem) : Prop where
  level : report.mLevel = some .ERROR
  longer : li.messageLength < report.messageLength

theorem newLogItem_of_length {logbuffer : List LogItem} (h : logbuffer.length < 1500)
    (logItem : LogItem) (cachedLine : Bool) :
    newLogItem logbuffer logItem cachedLine =
      if cachedLine then logItem :: logbuffer else logbuffer ++ [logItem] := by
  have hshort : ¬ (if cachedLine then logItem :: logbuffer else logbuffer ++ [logItem]).length >
      MAXLOGENTRIES + MAXLOGENTRIES / 2 := by
    have hmax : MAXLOGENTRIES + MAXLOGENTRIES / 2 = 1500 := by decide
    rw [hmax]
    cases cachedLine with
    | false =>
        rw [if_neg Bool.false_ne_true, List.length_append, List.length_singleton]
        omega
    | true =>
        rw [if_pos rfl, List.length_cons]
        omega
  rw [newLogItem]
  exact if_neg hshort

theorem length_le_encode (t : Text) : t.length ≤ (Utf8.encode t).length := by
  induction t with
  | nil => exact le_rfl
  | cons c t ih =>
      obtain ⟨b, bs, hbytes, -⟩ := Utf8.encodeChar_spec c
      rw [Utf8.encode_cons, hbytes, List.length_append, List.length_cons, List.length_cons]
      omega

theorem length_le_marschalMessage (message : Option Text) :
    (message.getD []).length ≤ (LogItem.marschalMessage message).length := by
  cases message with
  | none => exact Nat.zero_le _
  | some text =>
      cases text with
      | nil => exact Nat.zero_le _
      | cons c cs =>
          have hchars := length_le_encode (c :: cs)
          rw [LogItem.marschalMessage, LogItem.marschalString, List.length_append, Option.getD_some]
          exact hchars.trans (Nat.le_add_left _ _)

/-- An item has more bytes than characters in its message. -/
theorem messageLength_lt {li : LogItem} {bytes : List UInt8}
    (h : li.getMarschaledBytes = some bytes) :
    li.messageLength < bytes.length ∧ bytes.length ≤ 16384 := by
  rw [LogItem.getMarschaledBytes] at h
  split at h
  · cases h
  · rename_i level hlevel
    split at h
    · rename_i hsize
      obtain rfl := Option.some.inj h
      refine ⟨?_, hsize⟩
      have hmessage := length_le_marschalMessage li.mMessage
      rw [LogItem.marschal, LogItem.messageLength]
      simp only [List.length_cons, List.length_append]
      omega
    · cases h

theorem size_of_frames {items : List LogItem} {frames : List (List UInt8)}
    (h : List.Forall₂ (fun li bytes => LogItem.getMarschaledBytes li = some bytes) items frames) :
    ∀ bytes ∈ frames, bytes.length ≤ 16384 := by
  induction h with
  | nil => exact fun _ h => absurd h List.not_mem_nil
  | cons hbytes _ ih => exact List.forall_mem_cons.2 ⟨(messageLength_lt hbytes).2, ih⟩

theorem length_flatMap_hexByte (bytes : List UInt8) :
    (bytes.flatMap hexByte).length = 2 * bytes.length := by
  induction bytes with
  | nil => rfl
  | cons b bytes ih =>
      have hbyte : (hexByte b).length = 2 := rfl
      rw [List.flatMap_cons, List.length_append, ih, hbyte, List.length_cons]
      omega

theorem length_padded {bytes : List UInt8} (h : bytes.length ≤ 16384) :
    (padded bytes).length = 16384 := by
  rw [padded, List.length_append, List.length_replicate]
  omega

/-- The line that is logged in place of an item is longer than the item. -/
theorem length_couldNotRead (p : Platform) {bytes : List UInt8} (h : bytes.length ≤ 16384) :
    bytes.length ≤ (couldNotRead p (padded bytes) bytes.length).length := by
  have hhex : bytes.length ≤
      (bytesToHex (padded bytes) (max (bytes.length : Int) 80).toNat).length := by
    rw [bytesToHex, length_flatMap_hexByte, List.length_take, length_padded h]
    omega
  have hbehind : ∀ before hex : Text, hex.length ≤ (before ++ hex).length := by
    intro before hex
    rw [List.length_append]
    exact Nat.le_add_left _ _
  unfold couldNotRead
  exact hhex.trans (hbehind _ _)

/-- **What becomes of an item.** With too many arguments it stops the reading; else it is put in
front of the log buffer, if it can be verified, or a report about it behind the log buffer. -/
theorem restoreLogItem_spec (p : Platform) {li : LogItem} {bytes : List UInt8}
    (h : li.getMarschaledBytes = some bytes) (logbuffer : List LogItem)
    (hshort : logbuffer.length < 1500) :
    if 30 < li.args.length then
      restoreLogItem p (padded bytes) bytes.length logbuffer = .error .tooManyArguments
    else if li.reread.verify then
      restoreLogItem p (padded bytes) bytes.length logbuffer = .ok (li.reread :: logbuffer)
    else ∃ report, ReportOf li report ∧
      restoreLogItem p (padded bytes) bytes.length logbuffer = .ok (logbuffer ++ [report]) := by
  obtain ⟨hmessage, hsize⟩ := messageLength_lt h
  have hread := LogItem.ofBytes_getMarschaledBytes h
  have hin : ¬ ((bytes.length : Int) < 0 ∨ ((padded bytes).length : Int) < bytes.length) := by
    rw [length_padded hsize]
    omega
  have htake : (padded bytes).take (bytes.length : Int).toNat = bytes := by
    rw [padded, Int.toNat_natCast, List.take_left]
  rw [restoreLogItem, if_neg hin, htake, hread]
  by_cases hmany : 30 < li.args.length
  · rw [if_pos hmany, if_pos hmany]
  · rw [if_neg hmany, if_neg hmany]
    dsimp only
    by_cases hverify : li.reread.verify = true
    · rw [if_pos hverify, if_pos hverify, newLogItem_of_length hshort]
      rfl
    · rw [if_neg hverify, if_neg hverify, Platform.log, newLogItem_of_length hshort,
        if_neg Bool.false_ne_true]
      refine ⟨_, ⟨rfl, ?_⟩, rfl⟩
      exact hmessage.trans_le (length_couldNotRead p hsize)

/-! ## All items -/

/-- The items that can be verified when they are read. -/
def verified (items : List LogItem) : List LogItem := items.filter fun li => li.reread.verify

/-- The other ones. -/
def unverified (items : List LogItem) : List LogItem := items.filter fun li => !li.reread.verify

/-- **The reading stops** at an item with too many arguments, with fewer items read than there
are. -/
theorem play_stops (p : Platform) {items : List LogItem} {frames : List (List UInt8)}
    (hframes : List.Forall₂ (fun li bytes => LogItem.getMarschaledBytes li = some bytes)
      items frames)
    (itemsRead : Nat) (hmany : ∃ li ∈ items, 30 < li.args.length) :
    ∀ logbuffer : List LogItem, logbuffer.length + items.length ≤ 1000 →
      (play p (frames.map (fun bytes => .restoreLogItem (padded bytes) bytes.length) ++
        [.reread_log itemsRead]) logbuffer).logbuffer.length < logbuffer.length + items.length := by
  induction hframes with
  | nil =>
      obtain ⟨li, hli, -⟩ := hmany
      exact absurd hli List.not_mem_nil
  | @cons li bytes items frames hbytes hrest ih =>
      intro logbuffer hcount
      rw [List.length_cons] at hcount
      have hspec := restoreLogItem_spec p hbytes logbuffer (by omega)
      rw [List.map_cons, List.cons_append, play, List.length_cons]
      by_cases hthis : 30 < li.args.length
      · rw [if_pos hthis] at hspec
        rw [hspec]
        dsimp only
        omega
      · -- either way the log buffer is one longer, and the item is further on
        have hlater : ∃ li ∈ items, 30 < li.args.length := by
          obtain ⟨bad, hbad, hargs⟩ := hmany
          rcases List.mem_cons.1 hbad with rfl | hbad
          · exact absurd hargs hthis
          · exact ⟨bad, hbad, hargs⟩
        rw [if_neg hthis] at hspec
        split at hspec
        · rw [hspec]
          have hless := ih hlater (li.reread :: logbuffer) (by rw [List.length_cons]; omega)
          rw [List.length_cons] at hless
          dsimp only
          omega
        · obtain ⟨report, -, hspec⟩ := hspec
          rw [hspec]
          have hless := ih hlater (logbuffer ++ [report])
            (by rw [List.length_append, List.length_singleton]; omega)
          rw [List.length_append, List.length_singleton] at hless
          dsimp only
          omega

/-- **The reading comes to its end.** The log buffer holds the verified items in reverse, what was
there before, the reports about the other items, and the line about the reading. -/
theorem play_reads (p : Platform) {items : List LogItem} {frames : List (List UInt8)}
    (hframes : List.Forall₂ (fun li bytes => LogItem.getMarschaledBytes li = some bytes)
      items frames)
    (itemsRead : Nat) (hfew : ∀ li ∈ items, li.args.length ≤ 30) :
    ∀ logbuffer : List LogItem, logbuffer.length + items.length ≤ 1000 →
      ∃ reports closing, List.Forall₂ ReportOf (unverified items) reports ∧
        (play p (frames.map (fun bytes => .restoreLogItem (padded bytes) bytes.length) ++
          [.reread_log itemsRead]) logbuffer).logbuffer =
            ((verified items).map LogItem.reread).reverse ++ logbuffer ++ reports ++ [closing] := by
  -- induction on the records, the buffer growing at either end
  induction hframes with
  | nil =>
      intro logbuffer hcount
      rw [List.length_nil] at hcount
      rw [List.map_nil, List.nil_append, play, play, Platform.logReread,
        newLogItem_of_length (by omega), if_neg Bool.false_ne_true]
      exact ⟨[], _, .nil, by rw [verified, List.filter_nil, List.map_nil, List.reverse_nil,
        List.nil_append, List.append_nil]⟩
  | @cons li bytes items frames hbytes hrest ih =>
      intro logbuffer hcount
      obtain ⟨hthis, hfew⟩ := List.forall_mem_cons.1 hfew
      rw [List.length_cons] at hcount
      have hspec := restoreLogItem_spec p hbytes logbuffer (by omega)
      rw [if_neg (Nat.not_lt.2 hthis)] at hspec
      rw [List.map_cons, List.cons_append, play]
      by_cases hverify : li.reread.verify = true
      · -- the item is put in front
        rw [if_pos hverify] at hspec
        rw [hspec]
        obtain ⟨reports, closing, hreports, hlog⟩ := ih hfew (li.reread :: logbuffer)
          (by rw [List.length_cons]; omega)
        have hkept : verified (li :: items) = li :: verified items :=
          List.filter_cons_of_pos hverify
        have hother : unverified (li :: items) = unverified items := by
          rw [unverified, List.filter_cons_of_neg (by rw [hverify]; exact Bool.false_ne_true),
            unverified]
        rw [hkept, hother]
        refine ⟨reports, closing, hreports, ?_⟩
        dsimp only
        rw [hlog, List.map_cons, List.reverse_cons]
        simp only [List.append_assoc, List.cons_append, List.nil_append]
      · -- a report is put behind
        rw [if_neg hverify] at hspec
        obtain ⟨report, hreport, hspec⟩ := hspec
        rw [hspec]
        obtain ⟨reports, closing, hreports, hlog⟩ := ih hfew (logbuffer ++ [report])
          (by rw [List.length_append, List.length_singleton]; omega)
        have hfalse : li.reread.verify = false := Bool.eq_false_of_not_eq_true hverify
        have hkept : verified (li :: items) = verified items :=
          List.filter_cons_of_neg hverify
        have hother : unverified (li :: items) = li :: unverified items := by
          rw [unverified, List.filter_cons_of_pos (by rw [hfalse]; rfl), unverified]
        rw [hkept, hother]
        refine ⟨report :: reports, closing, .cons hreport hreports, ?_⟩
        dsimp only
        rw [hlog]
        simp only [List.append_assoc, List.cons_append, List.nil_append]

/-! ## Exactly the items -/

theorem nullIfEmpty_ne {α : Type} (value : Option (List α)) :
    LogItem.nullIfEmpty value ≠ some [] := by
  match value with
  | none => exact fun h => nomatch h
  | some [] => exact fun h => nomatch h
  | some (x :: xs) => exact fun h => nomatch h

theorem nullIfEmpty_of_ne {α : Type} {value : Option (List α)} (h : value ≠ some []) :
    LogItem.nullIfEmpty value = value := by
  match value with
  | none => rfl
  | some [] => exact absurd rfl h
  | some (x :: xs) => rfl

theorem messageLength_identify (li : LogItem) : li.identify.messageLength = li.messageLength := by
  rcases li with ⟨level, args, message, id, time, verbosity⟩
  match message with
  | none => rfl
  | some [] => rfl
  | some (c :: cs) => rfl

theorem level_of_reports {items reports : List LogItem} (h : List.Forall₂ ReportOf items reports) :
    ∀ report ∈ reports, report.mLevel = some .ERROR := by
  induction h with
  | nil => exact fun _ hreport => absurd hreport List.not_mem_nil
  | cons hreport _ ih => exact List.forall_mem_cons.2 ⟨hreport.level, ih⟩

/-- A report is never the item that it is about. -/
theorem reports_eq_nil {items reports : List LogItem} (h : List.Forall₂ ReportOf items reports)
    (heq : items.map LogItem.identify = reports.map LogItem.identify) : reports = [] := by
  cases h with
  | nil => rfl
  | @cons li report _ _ hreport _ =>
      rw [List.map_cons, List.map_cons] at heq
      have hlength := congrArg LogItem.messageLength (List.cons.inj heq).1
      rw [messageLength_identify, messageLength_identify] at hlength
      exact absurd hlength (Nat.ne_of_lt hreport.longer)

/-- An item at the level of errors cannot be verified. -/
theorem verify_of_error {li : LogItem} (h : li.mLevel = some .ERROR) :
    li.reread.verify = false := by
  have hlevel : li.reread.mLevel = none := by
    rw [LogItem.reread, h]
    rfl
  rw [LogItem.verify, if_pos hlevel]

theorem verified_append_unverified_length (items : List LogItem) :
    (verified items).length + (unverified items).length = items.length := by
  induction items with
  | nil => rfl
  | cons li items ih =>
      rw [verified, unverified] at ih ⊢
      rw [List.filter_cons, List.filter_cons, List.length_cons]
      cases hverify : li.reread.verify with
      | true =>
          rw [if_pos rfl, Bool.not_true, if_neg Bool.false_ne_true, List.length_cons]
          omega
      | false =>
          rw [if_neg Bool.false_ne_true, Bool.not_false, if_pos rfl, List.length_cons]
          omega

/-- If the reports stand where the items stood, there are none: all that stand there are errors, so
that each of them is its own report. -/
theorem reports_eq_nil_of_restored {items reports : List LogItem}
    (hreports : List.Forall₂ ReportOf (unverified items) reports)
    (heq : items.map LogItem.identify =
      (((verified items).map LogItem.reread).reverse ++ reports).map LogItem.identify) :
    reports = [] := by
  have hlength := verified_append_unverified_length items
  have hreportsLength := hreports.length_eq
  -- the items in the places of the reports
  obtain ⟨front, back, hitems, hfront, hback⟩ :
      ∃ front back, items = front ++ back ∧ front.length = (verified items).length ∧
        back.map LogItem.identify = reports.map LogItem.identify := by
    refine ⟨items.take (verified items).length, items.drop (verified items).length,
      (List.take_append_drop _ _).symm, ?_, ?_⟩
    · rw [List.length_take]
      omega
    · rw [List.map_drop, heq, List.map_append, List.drop_left']
      rw [List.length_map, List.length_reverse, List.length_map]
  have herrors : ∀ li ∈ back, li.mLevel = some .ERROR := by
    intro li hli
    have hmem : li.identify ∈ reports.map LogItem.identify := by
      rw [← hback]
      exact List.mem_map_of_mem hli
    obtain ⟨report, hreport, hsame⟩ := List.mem_map.1 hmem
    have hlevel := congrArg LogItem.mLevel hsame
    exact hlevel.symm.trans (level_of_reports hreports report hreport)
  have hunverified : unverified back = back := by
    apply List.filter_eq_self.2
    intro li hli
    rw [verify_of_error (herrors li hli)]
    rfl
  have hsplit : unverified items = unverified front ++ back := by
    conv_lhs => rw [hitems]
    rw [unverified, List.filter_append]
    exact congrArg _ hunverified
  have hnone : unverified front = [] := by
    have h₁ := congrArg List.length hsplit
    have h₂ := congrArg List.length hitems
    rw [List.length_append] at h₁ h₂
    apply List.eq_nil_of_length_eq_zero
    omega
  rw [hnone, List.nil_append] at hsplit
  rw [hsplit] at hreports
  exact reports_eq_nil hreports hback

/-- An item that keeps everything can be verified, and is read as it was. -/
theorem reread_of_keeps {li : LogItem} (h : li.Keeps) :
    li.reread.verify = true ∧ li.reread.identify = li.identify := by
  have hlevel : li.mLevel.bind LogLevel.reread = li.mLevel := by
    rw [h.level]
    rfl
  have hmessage : LogItem.nullIfEmpty (LogItem.nullIfEmpty li.mMessage) =
      LogItem.nullIfEmpty li.mMessage := nullIfEmpty_of_ne (nullIfEmpty_ne _)
  refine ⟨?_, ?_⟩
  · rw [LogItem.verify, LogItem.reread]
    dsimp only
    rw [hlevel, h.level, if_neg (Option.some_ne_none _), if_neg]
    rintro ⟨hnone, hzero⟩
    exact h.verified hnone hzero
  · rw [LogItem.reread, LogItem.identify, LogItem.identify]
    dsimp only
    rw [hlevel, nullIfEmpty_of_ne h.array, hmessage]

/-- If all items are verified and come back in some order, then each is read as it was written: an
item at `ERROR` is not verified, `INFO` is read as `ERROR`, `WARNING` as `INFO` and `VERBOSE` as
`WARNING`, so that each of these levels is excluded by the one before it. -/
theorem keeps_of_restored {items : List LogItem} (hall : ∀ li ∈ items, li.reread.verify = true)
    (hfew : ∀ li ∈ items, li.args.length ≤ 30)
    (heq : items.map LogItem.identify =
      (((items.map LogItem.reread).reverse).map LogItem.identify)) :
    ∀ li ∈ items, li.Keeps := by
  have hfrom : ∀ li ∈ items, ∃ other ∈ items, other.reread.identify = li.identify := by
    intro li hli
    have hmem : li.identify ∈ ((items.map LogItem.reread).reverse).map LogItem.identify := by
      rw [← heq]
      exact List.mem_map_of_mem hli
    obtain ⟨other', hother', hsame⟩ := List.mem_map.1 hmem
    obtain ⟨other, hother, rfl⟩ := List.mem_map.1 (List.mem_reverse.1 hother')
    exact ⟨other, hother, hsame⟩
  have hto : ∀ li ∈ items, ∃ other ∈ items, other.mLevel = li.mLevel.bind LogLevel.reread := by
    intro li hli
    have hmem : li.reread.identify ∈ items.map LogItem.identify := by
      rw [heq]
      exact List.mem_map_of_mem (List.mem_reverse.2 (List.mem_map_of_mem hli))
    obtain ⟨other, hother, hsame⟩ := List.mem_map.1 hmem
    exact ⟨other, hother, congrArg LogItem.mLevel hsame⟩
  have herror : ∀ li ∈ items, li.mLevel ≠ some .ERROR := by
    intro li hli h
    exact Bool.false_ne_true ((verify_of_error h).symm.trans (hall li hli))
  -- a level is excluded if the level that is read for it is
  have hexclude : ∀ level read : LogLevel, level.reread = some read →
      (∀ li ∈ items, li.mLevel ≠ some read) → ∀ li ∈ items, li.mLevel ≠ some level := by
    intro level read hread hnone li hli h
    obtain ⟨other, hother, hlevel⟩ := hto li hli
    rw [h] at hlevel
    exact hnone other hother (hlevel.trans hread)
  have hinfo := hexclude .INFO .ERROR rfl herror
  have hwarning := hexclude .WARNING .INFO rfl hinfo
  have hverbose := hexclude .VERBOSE .WARNING rfl hwarning
  intro li hli
  have hverify := hall li hli
  rw [LogItem.verify] at hverify
  split at hverify
  · cases hverify
  · rename_i hlevel
    split at hverify
    · cases hverify
    · rename_i hmessage
      obtain ⟨other, -, hsame⟩ := hfrom li hli
      have hargs : LogItem.nullIfEmpty other.mArgs = li.mArgs := congrArg LogItem.mArgs hsame
      refine ⟨?_, ?_, hfew li hli, ?_⟩
      · match h : li.mLevel with
        | none =>
            rw [LogItem.reread, h] at hlevel
            exact absurd rfl hlevel
        | some .INFO => exact absurd h (hinfo li hli)
        | some .ERROR => exact absurd h (herror li hli)
        | some .WARNING => exact absurd h (hwarning li hli)
        | some .VERBOSE => exact absurd h (hverbose li hli)
        | some .DEBUG => rfl
      · rw [← hargs]
        exact nullIfEmpty_ne _
      · intro hnone hzero
        exact hmessage ⟨hnone, hzero⟩

theorem map_reread_identify {items : List LogItem} (h : ∀ li ∈ items, li.Keeps) :
    (items.map LogItem.reread).map LogItem.identify = items.map LogItem.identify := by
  rw [List.map_map]
  exact List.map_congr_left fun li hli => (reread_of_keeps (h li hli)).2

/-- If the log is restored by a reading that came to its end, every item was read as it was written,
and the order does not show. -/
theorem keeps_of_reads {items reports : List LogItem} {closing : LogItem}
    (hfew : ∀ li ∈ items, li.args.length ≤ 30)
    (hreports : List.Forall₂ ReportOf (unverified items) reports)
    (hrestored : Restored items
      (((verified items).map LogItem.reread).reverse ++ reports ++ [closing])) :
    (∀ li ∈ items, li.Keeps) ∧
      (items.map LogItem.identify).reverse = items.map LogItem.identify := by
  have hlength := verified_append_unverified_length items
  have hreportsLength := hreports.length_eq
  -- the items are all but the last line
  have heq : items.map LogItem.identify =
      (((verified items).map LogItem.reread).reverse ++ reports).map LogItem.identify := by
    rw [Restored, List.map_append] at hrestored
    have hprefix := List.prefix_of_prefix_length_le hrestored (List.prefix_append _ _) (by
      simp only [List.length_map, List.length_append, List.length_reverse]
      omega)
    apply hprefix.eq_of_length
    simp only [List.length_map, List.length_append, List.length_reverse]
    omega
  -- none of them is a report, so that all were verified
  have hnone := reports_eq_nil_of_restored hreports heq
  rw [hnone] at hreportsLength heq
  have hunverified := List.eq_nil_of_length_eq_zero hreportsLength
  have hall : ∀ li ∈ items, li.reread.verify = true := by
    intro li hli
    by_contra hnot
    have hmem : li ∈ unverified items := by
      rw [unverified, List.mem_filter]
      exact ⟨hli, by rw [Bool.eq_false_of_not_eq_true hnot]; rfl⟩
    rw [hunverified] at hmem
    exact List.not_mem_nil hmem
  have hverified : verified items = items := List.filter_eq_self.2 hall
  rw [hverified, List.append_nil] at heq
  have hkeeps := keeps_of_restored hall hfew heq
  refine ⟨hkeeps, ?_⟩
  rw [List.map_reverse, map_reread_identify hkeeps] at heq
  exact heq.symm

theorem restored_of_keeps {items reports : List LogItem} {closing : LogItem}
    (hkeeps : ∀ li ∈ items, li.Keeps)
    (hboth : (items.map LogItem.identify).reverse = items.map LogItem.identify) :
    Restored items (((verified items).map LogItem.reread).reverse ++ reports ++ [closing]) := by
  have hverified : verified items = items :=
    List.filter_eq_self.2 fun li hli => (reread_of_keeps (hkeeps li hli)).1
  rw [hverified, Restored, List.map_append, List.map_append, List.map_reverse,
    map_reread_identify hkeeps, hboth, List.append_assoc]
  exact List.prefix_append _ _

/-- **The log is restored as it was exactly where nothing changes and the order does not show.** What
is in the log buffer afterwards is never the log alone, for the line about the reading is behind it
or the reading was not finished. Apart from the lines about the reading it is the log if and only if
every item has the level `DEBUG`, no empty array and at most thirty arguments, and a message or the
number of a text, and the log is the same in both directions. -/
theorem readCacheContents_iff (p : Platform) {items : List LogItem} {file : List UInt8}
    (hcount : items.length ≤ 1000) (hfile : items.foldlM writeLogItemToDisk [] = some file) :
    (readCacheContents p file []).logbuffer.map LogItem.identify ≠ items.map LogItem.identify ∧
    (Restored items (readCacheContents p file []).logbuffer ↔
      (∀ li ∈ items, li.Keeps) ∧
        (items.map LogItem.identify).reverse = items.map LogItem.identify) := by
  obtain ⟨frames, hframes, rfl⟩ := exists_frames hfile
  rw [List.nil_append]
  have hlength := hframes.length_eq
  rw [readCacheContents_eq_play, readEvents_flatMap (by omega) (size_of_frames hframes)]
  by_cases hfew : ∀ li ∈ items, li.args.length ≤ 30
  swap
  · -- the reading was not finished
    have hmany : ∃ li ∈ items, 30 < li.args.length := by
      simpa only [not_forall, not_le, exists_prop] using hfew
    have hless := play_stops p hframes frames.length hmany [] (by simpa using hcount)
    rw [List.length_nil, Nat.zero_add] at hless
    refine ⟨?_, ?_, ?_⟩
    · intro heq
      have hlength := congrArg List.length heq
      rw [List.length_map, List.length_map] at hlength
      exact absurd hlength (Nat.ne_of_lt hless)
    · intro hrestored
      have hlength := hrestored.length_le
      rw [List.length_map, List.length_map] at hlength
      exact absurd hless (Nat.not_lt.2 hlength)
    · rintro ⟨hkeeps, -⟩
      exact absurd (fun li hli => (hkeeps li hli).few) hfew
  -- the reading came to its end, with the line about it behind everything
  · obtain ⟨reports, closing, hreports, hlog⟩ :=
      play_reads p hframes frames.length hfew [] (by simpa using hcount)
    rw [hlog, List.append_nil]
    have hlength := verified_append_unverified_length items
    have hreportsLength := hreports.length_eq
    refine ⟨?_, ?_, ?_⟩
    · intro heq
      have h := congrArg List.length heq
      simp only [List.length_map, List.length_append, List.length_reverse, List.length_singleton]
        at h
      omega
    · exact keeps_of_reads hfew hreports
    · rintro ⟨hkeeps, hboth⟩
      exact restored_of_keeps hkeeps hboth

/-- A clock that stands still, and numbers in English. -/
def system : Platform :=
  { currentTimeMillis := fun _ => 1700000000000, reread_log := 0x7F0F0123, format := decimal }

/-- A log of one line. -/
def line (level : LogLevel) : LogItem :=
  { mLevel := some level, mMessage := some ['o', 'k'], logtime := 1600000000000 }

/-- The file with the line, whose level is written as the last byte of the third `int`. -/
def lineFile (level : UInt8) : List UInt8 :=
  [0x55, 0, 0, 0, 31, 0, 0, 0, 1, 0x74, 0x87, 0x6E, 0x80, 0, 0xFF, 0xFF, 0xFF, 0xFF, 0, 0, 0, level,
    0, 0, 0, 0, 0, 0, 0, 2, 0x6F, 0x6B, 0, 0, 0, 0]

/-- One line at the level `DEBUG` is restored. -/
theorem readCacheContents_iff_debug :
    Restored [line .DEBUG] (readCacheContents system (lineFile 4) []).logbuffer := by
  have hfile : [line .DEBUG].foldlM writeLogItemToDisk [] = some (lineFile 4) := by
    decide +kernel
  apply (readCacheContents_iff system (by decide) hfile).2.2
  refine ⟨?_, rfl⟩
  intro li hli
  obtain rfl := List.mem_singleton.1 hli
  exact ⟨rfl, by decide, by decide, by decide⟩

/-- One line at the level `INFO` comes back as an error. -/
theorem readCacheContents_counterexample :
    ¬ ∀ (p : Platform) (items : List LogItem) (file : List UInt8), items.length ≤ 1000 →
      items.foldlM writeLogItemToDisk [] = some file →
        Restored items (readCacheContents p file []).logbuffer := by
  intro h
  have hrestored := h system [line .INFO] (lineFile 2) (by decide) (by decide +kernel)
  revert hrestored
  rw [Restored]
  decide +kernel

end PortVpn.Log
