import Mathlib.Algebra.Order.Ring.Nat
import PortVpn.Lib.Draining
import PortVpn.Log.LogMirror

/-!
# Writes to the log file that fail

When a write to the log file raises an exception, `LogFileHandler.handleMessage` logs two items
about it, and both of them are messages for the same handler. So each message of which a write
fails puts two others behind it, and a third one whenever the log buffer is shortened. A write also
logs an item for each argument of a type that `getMarschaledBytes` does not know. `drains_iff` says
for which patterns of writes the queue becomes empty all the same.

The handler is that of the log buffer and its file; here a message comes with what its writes do.
`FLUSH_TO_DISK` is left out: `flush` does nothing for a `FileOutputStream`.
-/

set_option autoImplicit false

namespace PortVpn.Log

open PortVpn.Lib

/-! ## Handling a message -/

/-- A call of `writeLogItemToDisk`: how many arguments of an unknown type it comes to, and whether it
raises an exception. -/
structure Write where
  unknown : Nat := 0
  raises : Bool := false
  deriving DecidableEq, Repr

/-- How many items the writes of a message log: one for an argument of an unknown type, and two for
an exception. -/
def loggedBy (writes : List Write) : Nat :=
  (writes.map Write.unknown).sum + if writes.any Write.raises then 2 else 0

/-- The items that were written, the arguments of an unknown type, and whether there was an
exception. -/
structure Written where
  items : List Entry := []
  unknown : Nat := 0
  raised : Bool := false
  deriving DecidableEq, Repr

namespace LogState

/-- `writeLogItemToDisk` for one item after the other, up to the first that raises an exception.
`none` if so many writes were not made. -/
def writeItems : List Entry → List Write → Option Written
  | [], [] => some {}
  | li :: items, w :: writes =>
      -- the arguments are logged before the bytes are written, or do not fit
      if w.raises then if writes = [] then some { unknown := w.unknown, raised := true } else none
      else (writeItems items writes).map fun r =>
        { r with items := li :: r.items, unknown := w.unknown + r.unknown }
  | _, _ => none

/-- So many items are logged, such as those of `logDebug` for the arguments of an unknown type. -/
def logItems (s : LogState) : Nat → LogState
  | 0 => s
  | n + 1 => (s.logItems n).log

/-- The end of `handleMessage`, with `logError` and `logException` for an exception. -/
def catchException (s : LogState) (raised : Bool) : LogState := if raised then s.log.log else s

/-- `handleMessage` for the first message, with what its writes do. -/
def handleWrites (s : LogState) (writes : List Write) : Option LogState :=
  match s.queue, s.mLogFile with
  | .LOG_MESSAGE li :: rest, some file =>
      (writeItems [li] writes).map fun r =>
        catchException (logItems { s with queue := rest, mLogFile := some (file ++ r.items) }
          r.unknown) r.raised
  | .TRIM_LOG_FILE :: rest, some _ =>
      -- the array of `getlogbuffer` does not grow with the buffer
      (writeItems s.logbuffer writes).map fun r =>
        catchException (logItems { s with queue := rest, mLogFile := some r.items } r.unknown)
          r.raised
  | _, _ => if writes = [] then s.handleMessage else none

end LogState

/-- What happens next: a thread logs an item or clears the log, or the handler handles a message. -/
inductive HandlerLabel where
  | newLogItem
  | clearLog
  | handleMessage (writes : List Write)
  deriving DecidableEq, Repr

/-- The log with writes that fail as a machine. -/
def handlerStep : Machine LogState HandlerLabel Unit := fun s label =>
  match label with
  | .newLogItem => some (s.log, [])
  | .clearLog => some (s.clearLog, [])
  | .handleMessage writes => (s.handleWrites writes).map fun s => (s, [])

/-! ## The statement -/

/-- What the writes of the messages do that are handled from now on. -/
abbrev Pattern := Nat → List Write

namespace Pattern

variable (pattern : Pattern) (s : LogState)

/-- The log after the handler has taken some messages, and nothing else was logged. -/
def after : Nat → Option LogState :=
  Draining.after (fun n t => t.handleWrites (pattern n)) s

/-- As long as there is a message, the pattern says what its writes do. -/
def Fits : Prop :=
  ∀ n t, pattern.after s n = some t → t.queue ≠ [] → ∃ u, t.handleWrites (pattern n) = some u

/-- The handler gets to the end of its queue. -/
def Drains : Prop := ∃ n t, pattern.after s n = some t ∧ t.queue = []

/-- How many items the handler logs about the next messages. -/
def logged (n : Nat) : Nat := ((List.range n).map fun k => loggedBy (pattern k)).sum

end Pattern

/-- How often the log buffer was shortened when so many items were put into it in all. -/
def trims (total : Nat) : Nat := (total - MAXLOGENTRIES) / (MAXLOGENTRIES / 2 + 1)

/-! ## What a message does -/

namespace LogState

variable {s t : LogState} {writes : List Write}

theorem writeItems_spec {items : List Entry} :
    ∀ {writes : List Write} {r : Written}, writeItems items writes = some r →
      r.unknown = (writes.map Write.unknown).sum ∧ r.raised = writes.any Write.raises ∧
        (writes.any Write.raises = false → r.items = items) := by
  induction items with
  | nil =>
      intro writes r h
      cases writes with
      | nil =>
          obtain rfl := Option.some.inj h
          exact ⟨rfl, rfl, fun _ => rfl⟩
      | cons w writes => cases h
  | cons li items ih =>
      intro writes r h
      cases writes with
      | nil => cases h
      | cons w writes =>
          rw [writeItems] at h
          rw [List.map_cons, List.sum_cons, List.any_cons]
          cases hw : w.raises with
          | true =>
              rw [hw, if_pos rfl] at h
              split at h
              next hlast =>
                obtain rfl := Option.some.inj h
                exact ⟨by simp [hlast], rfl, fun hnot => absurd hnot (by simp)⟩
              next => cases h
          | false =>
              rw [hw, if_neg Bool.false_ne_true] at h
              obtain ⟨r', hr', rfl⟩ := Option.map_eq_some_iff.1 h
              obtain ⟨hunknown, hraised, hall⟩ := ih hr'
              rw [Bool.false_or]
              refine ⟨by rw [hunknown], hraised, fun hnot => ?_⟩
              rw [hall hnot]

/-- Without an item about it, no write has failed. -/
theorem writeItems_items {items : List Entry} {r : Written}
    (hr : writeItems items writes = some r) (hnone : loggedBy writes = 0) : r.items = items := by
  refine (writeItems_spec hr).2.2 ?_
  rw [loggedBy] at hnone
  cases hany : writes.any Write.raises with
  | true => rw [hany, if_pos rfl] at hnone; omega
  | false => rfl

/-- What the writes log and what is logged of their exception. -/
theorem catchException_logItems {items : List Entry} {r : Written}
    (hr : writeItems items writes = some r) (u : LogState) :
    catchException (u.logItems r.unknown) r.raised = u.logItems (loggedBy writes) := by
  obtain ⟨hunknown, hraised, -⟩ := writeItems_spec hr
  rw [catchException, hunknown, hraised, loggedBy]
  cases writes.any Write.raises with
  | true => rfl
  | false => rfl

/-- **What handling a message does.** With an open log file, an item or the whole buffer is written,
and what the writes come to is logged; all else goes as if writes could not fail. -/
theorem handleWrites_cases (h : s.handleWrites writes = some t) :
    (∃ m rest file, s.queue = m :: rest ∧ (∀ calls, m ≠ .LOG_INIT calls) ∧ s.mLogFile.isSome ∧
      (loggedBy writes = 0 →
        s.handleMessage = some { s with queue := rest, mLogFile := some file }) ∧
      t = logItems { s with queue := rest, mLogFile := some file } (loggedBy writes)) ∨
    (writes = [] ∧ s.handleMessage = some t ∧
      (s.mLogFile = none ∨ s.queue = [] ∨ ∃ calls rest, s.queue = .LOG_INIT calls :: rest)) := by
  obtain ⟨logbuffer, queue, mLogFile, count⟩ := s
  have hother : (if writes = [] then handleMessage ⟨logbuffer, queue, mLogFile, count⟩ else none) =
      some t → writes = [] ∧ handleMessage ⟨logbuffer, queue, mLogFile, count⟩ = some t := by
    intro h
    split at h
    · exact ⟨‹_›, h⟩
    · cases h
  cases mLogFile with
  -- nothing is written before the file is open
  | none =>
      cases queue with
      | nil => exact Or.inr ⟨(hother h).1, (hother h).2, Or.inl rfl⟩
      | cons m rest =>
          cases m <;> exact Or.inr ⟨(hother h).1, (hother h).2, Or.inl rfl⟩
  | some file =>
      cases queue with
      | nil => exact Or.inr ⟨(hother h).1, (hother h).2, Or.inr (Or.inl rfl)⟩
      | cons m rest =>
          cases m with
          | LOG_INIT calls =>
              exact Or.inr ⟨(hother h).1, (hother h).2, Or.inr (Or.inr ⟨calls, rest, rfl⟩)⟩
          -- one item is written behind what the file holds
          | LOG_MESSAGE li =>
              obtain ⟨r, hr, rfl⟩ := Option.map_eq_some_iff.1 h
              refine Or.inl ⟨_, rest, file ++ r.items, rfl, by simp, rfl, fun hnone => ?_, ?_⟩
              · rw [writeItems_items hr hnone]
                rfl
              · exact catchException_logItems hr _
          -- the file is written anew from the log buffer
          | TRIM_LOG_FILE =>
              obtain ⟨r, hr, rfl⟩ := Option.map_eq_some_iff.1 h
              refine Or.inl ⟨_, rest, r.items, rfl, by simp, rfl, fun hnone => ?_, ?_⟩
              · rw [writeItems_items hr hnone]
                rfl
              · exact catchException_logItems hr _

/-- Where nothing is logged, a message is handled as if writes could not fail. -/
theorem handleMessage_of_handleWrites (h : s.handleWrites writes = some t)
    (hnone : loggedBy writes = 0) : s.handleMessage = some t := by
  rcases handleWrites_cases h with ⟨m, rest, file, -, -, -, hplain, rfl⟩ | ⟨-, hplain, -⟩
  · rw [hnone]
    exact hplain hnone
  · exact hplain

/-! ## What is logged -/

/-- The length of the log buffer when so many items were put into it in all. -/
def held (total : Nat) : Nat :=
  if total ≤ MAXLOGENTRIES + MAXLOGENTRIES / 2 then total
  else MAXLOGENTRIES + (total - MAXLOGENTRIES) % (MAXLOGENTRIES / 2 + 1)

/-- An item is put into the log buffer and into the queue, and the buffer may be shortened. -/
theorem log_spec {total : Nat} (h : s.logbuffer.length = held total) :
    s.log.mLogFile = s.mLogFile ∧ s.log.logbuffer.length = held (total + 1) ∧
      s.log.queue.length + trims total = s.queue.length + 1 + trims (total + 1) ∧
      ∀ m ∈ s.log.queue, m ∈ s.queue ∨ ∀ calls, m ≠ .LOG_INIT calls := by
  have hmax : MAXLOGENTRIES = 1000 := rfl
  have hpush : s.push.logbuffer.length = s.logbuffer.length + 1 := by
    rw [push, List.length_append, List.length_singleton]
  have hqueue : s.push.queue.length = s.queue.length + 1 := by
    rw [push, List.length_append, List.length_singleton]
  have hmem : ∀ m ∈ s.push.queue, m ∈ s.queue ∨ ∀ calls, m ≠ .LOG_INIT calls := by
    intro m hm
    rcases List.mem_append.1 hm with hm | hm
    · exact Or.inl hm
    · obtain rfl := List.mem_singleton.1 hm
      exact Or.inr fun calls => LogMessage.noConfusion
  rw [held, hmax] at h
  rw [log_eq, trimBuffer, held, trims, trims, hmax, hpush]
  by_cases hlong : s.logbuffer.length + 1 > 1000 + 1000 / 2
  · rw [if_pos hlong]
    refine ⟨rfl, ?_, ?_, ?_⟩
    · rw [List.length_drop, hpush]
      split at h <;> split <;> omega
    · rw [List.length_append, hqueue, List.length_singleton]
      split at h <;> omega
    · intro m hm
      rcases List.mem_append.1 hm with hm | hm
      · exact hmem m hm
      · obtain rfl := List.mem_singleton.1 hm
        exact Or.inr fun calls => LogMessage.noConfusion
  · rw [if_neg hlong]
    refine ⟨rfl, ?_, ?_, hmem⟩
    · rw [hpush]
      split at h <;> split <;> omega
    · rw [hqueue]
      split at h <;> omega

/-- Some items are logged. -/
theorem logItems_spec {total : Nat} (h : s.logbuffer.length = held total) (k : Nat) :
    (s.logItems k).mLogFile = s.mLogFile ∧ (s.logItems k).logbuffer.length = held (total + k) ∧
      (s.logItems k).queue.length + trims total = s.queue.length + k + trims (total + k) ∧
      ∀ m ∈ (s.logItems k).queue, m ∈ s.queue ∨ ∀ calls, m ≠ .LOG_INIT calls := by
  induction k with
  | zero => exact ⟨rfl, h, rfl, fun m hm => Or.inl hm⟩
  | succ k ih =>
      obtain ⟨hfile, hbuffer, hqueue, hmem⟩ := ih
      obtain ⟨hfile', hbuffer', hqueue', hmem'⟩ := log_spec hbuffer
      rw [logItems]
      have hsucc : total + (k + 1) = total + k + 1 := rfl
      rw [hsucc]
      refine ⟨hfile'.trans hfile, hbuffer', by omega, fun m hm => ?_⟩
      rcases hmem' m hm with hm | hm
      · exact hmem m hm
      · exact Or.inr hm

/-- The handler has its file, and `LOG_INIT` is behind it. -/
structure Ready (s : LogState) : Prop where
  opened : s.mLogFile.isSome
  ready : ∀ calls, .LOG_INIT calls ∉ s.queue

/-- The log after some messages about which so many items were logged, from a buffer and a queue of
these lengths. -/
structure Drained (held₀ queue₀ logged handled : Nat) (s : LogState) : Prop extends Ready s where
  buffer : s.logbuffer.length = held (held₀ + logged)
  messages : s.queue.length + handled = queue₀ + logged + trims (held₀ + logged)

/-- **Step lemma**: a message is taken from the queue, and what is logged about it comes to it, with
one more each time the buffer is shortened. -/
theorem Drained.handleWrites {held₀ queue₀ logged handled : Nat}
    (hs : Drained held₀ queue₀ logged handled s) (h : s.handleWrites writes = some t) :
    Drained held₀ queue₀ (logged + loggedBy writes) (handled + 1) t := by
  rcases handleWrites_cases h with ⟨m, rest, file, hqueue, hm, -, -, rfl⟩ | ⟨-, hplain, hnot⟩
  · have hbuffer : ({ s with queue := rest, mLogFile := some file } : LogState).logbuffer.length =
        held (held₀ + logged) := hs.buffer
    obtain ⟨hfile, hbuffer', hlength, hmem⟩ := logItems_spec hbuffer (loggedBy writes)
    have hmessages := hs.messages
    rw [hqueue, List.length_cons] at hmessages
    rw [Nat.add_assoc held₀] at hbuffer' hlength
    refine ⟨⟨by rw [hfile]; rfl, fun calls hcalls => ?_⟩, hbuffer', ?_⟩
    · rcases hmem _ hcalls with hin | hne
      · exact hs.ready calls (by rw [hqueue]; exact List.mem_cons_of_mem m hin)
      · exact hne calls rfl
    · dsimp only at hlength
      omega
  · -- with an open file there is no other message
    rcases hnot with hnone | hempty | ⟨calls, rest, hqueue⟩
    · have hopened := hs.opened
      rw [hnone] at hopened
      cases hopened
    · rw [LogState.handleMessage, hempty] at hplain
      cases hplain
    · exact absurd (by rw [hqueue]; exact List.mem_cons_self) (hs.ready calls)

end LogState

/-! ## The queue -/

namespace Pattern

variable {pattern : Pattern} {s : LogState}

theorem logged_succ (n : Nat) :
    pattern.logged (n + 1) = pattern.logged n + loggedBy (pattern n) := by
  rw [logged, logged, List.range_succ, List.map_append, List.sum_append, List.map_singleton,
    List.sum_singleton]

/-- **Run lemma**: what is in the queue after so many messages. -/
theorem drained_after (hready : s.Ready)
    (hshort : s.logbuffer.length ≤ MAXLOGENTRIES + MAXLOGENTRIES / 2) (n : Nat) {t : LogState}
    (h : pattern.after s n = some t) :
    t.Drained s.logbuffer.length s.queue.length (pattern.logged n) n := by
  have hmax : MAXLOGENTRIES = 1000 := rfl
  refine Draining.after_inv (I := fun n t =>
    t.Drained s.logbuffer.length s.queue.length (pattern.logged n) n) ?_ ?_ n t h
  · refine ⟨hready, ?_, ?_⟩
    · exact (if_pos hshort).symm
    · have hnone : trims s.logbuffer.length = 0 := by
        rw [trims, hmax]
        omega
      show s.queue.length + 0 = s.queue.length + 0 + trims s.logbuffer.length
      rw [hnone]
  · intro n t u ht hu
    rw [logged_succ]
    exact ht.handleWrites hu

/-- The queue becomes empty if what is logged leaves it time to. -/
theorem drains_of_ready (hready : s.Ready)
    (hshort : s.logbuffer.length ≤ MAXLOGENTRIES + MAXLOGENTRIES / 2) (hfits : pattern.Fits s) :
    pattern.Drains s ↔ ∃ n, s.queue.length + pattern.logged n +
      trims (s.logbuffer.length + pattern.logged n) ≤ n := by
  have hiff := @Draining.exists_empty_iff LogState (fun n t => t.handleWrites (pattern n)) s
    (fun t => t.queue.length)
    (fun n => s.queue.length + pattern.logged n + trims (s.logbuffer.length + pattern.logged n))
    (fun n t ht => (drained_after hready hshort n ht).messages)
    (fun n t ht hne => hfits n t ht fun hnil => hne (by rw [hnil]; rfl))
  rw [← hiff]
  simp only [List.length_eq_zero_iff]
  rfl

end Pattern

/-! ## Runs -/

namespace LogState

variable {s t : LogState}

/-- What holds of every log that is reached: its items and its queue are as without failing writes,
and the buffer is not too long. -/
structure Reached (s : LogState) : Prop extends Base s where
  short : s.logbuffer.length ≤ MAXLOGENTRIES + MAXLOGENTRIES / 2

theorem Base.reached_trimBuffer (h : Base s) : Reached s.trimBuffer where
  toBase := h.trimBuffer
  short := by
    have hmax : MAXLOGENTRIES = 1000 := rfl
    rw [LogState.trimBuffer, hmax]
    split
    · rw [List.length_drop]
      omega
    · omega

theorem Base.reached_log (h : Base s) : Reached s.log := by
  rw [log_eq]
  exact h.push.reached_trimBuffer

theorem Base.reached_clearLog (h : Base s) : Reached s.clearLog := by
  have hlog := (h.shorten (List.nil_sublist _)).reached_log
  exact ⟨hlog.trim.toBase, hlog.short⟩

theorem Base.reached_cacheCall (h : Base s) (call : CacheCall) : Reached (s.cacheCall call) := by
  cases call with
  | restoreLogItem n =>
      have hcached : Base { s with logbuffer := .earlier n :: s.logbuffer } :=
        { distinct := h.distinct
          fresh := fun k hk => h.fresh k (by simpa using hk)
          sent := h.sent
          opened := h.opened }
      exact hcached.reached_trimBuffer
  | log => exact h.reached_log

theorem Reached.logItems (h : Reached s) (k : Nat) : Reached (s.logItems k) := by
  induction k with
  | zero => exact h
  | succ k ih =>
      rw [LogState.logItems]
      exact ih.toBase.reached_log

/-- **Step lemma** of the handler. -/
theorem Reached.handleWrites (h : Reached s) {writes : List Write}
    (ht : s.handleWrites writes = some t) : Reached t := by
  have hsent : ∀ m rest, s.queue = m :: rest → ∀ li, .LOG_MESSAGE li ∈ rest → li.isLogged :=
    fun m rest hqueue li hli => h.sent li (by rw [hqueue]; exact List.mem_cons_of_mem m hli)
  rcases handleWrites_cases ht with
    ⟨m, rest, file, hqueue, -, hopen, -, rfl⟩ | ⟨-, hplain, hnot⟩
  -- the file is open, so no `LOG_INIT` is left
  · have hrest : ∀ calls, .LOG_INIT calls ∉ rest := by
      intro calls hcalls
      rcases h.opened with ⟨hnone, -⟩ | ⟨-, hready⟩
      · rw [hnone] at hopen
        cases hopen
      · exact hready calls (by rw [hqueue]; exact List.mem_cons_of_mem m hcalls)
    have hwritten : Reached { s with queue := rest, mLogFile := some file } :=
      ⟨⟨h.distinct, h.fresh, hsent m rest hqueue, Or.inr ⟨rfl, hrest⟩⟩, h.short⟩
    exact hwritten.logItems _
  · -- only `LOG_INIT` is left
    have hinit : s.mLogFile = none ∧ ∃ calls rest, s.queue = .LOG_INIT calls :: rest ∧
        ∀ calls', .LOG_INIT calls' ∉ rest := by
      rcases h.opened with hinit | ⟨hopen, hready⟩
      · exact hinit
      · rcases hnot with hnone | hempty | ⟨calls, rest, hqueue⟩
        · rw [hnone] at hopen
          cases hopen
        · rw [handleMessage, hempty] at hplain
          cases hplain
        · exact absurd (by rw [hqueue]; exact List.mem_cons_self) (hready calls)
    obtain ⟨hnone, calls, rest, hqueue, hrest⟩ := hinit
    cases calls with
    | nil =>
        rw [handleMessage, hqueue, hnone] at hplain
        obtain rfl := Option.some.inj hplain
        exact ⟨⟨h.distinct, h.fresh, hsent _ rest hqueue, Or.inr ⟨rfl, hrest⟩⟩, h.short⟩
    | cons call calls =>
        rw [handleMessage, hqueue] at hplain
        obtain rfl := Option.some.inj hplain
        have hbase : Base { s with queue := .LOG_INIT calls :: rest } :=
          ⟨h.distinct, h.fresh, fun li hli => hsent _ rest hqueue li (by simpa using hli),
            Or.inl ⟨hnone, calls, rest, rfl, hrest⟩⟩
        exact hbase.reached_cacheCall call

/-- **Run lemma**. -/
theorem reached_of_visits {old : List Nat}
    (hold : old.length ≤ MAXLOGENTRIES + MAXLOGENTRIES / 2) {calls : List CacheCall}
    {labels : List HandlerLabel}
    (hvisit : Machine.Visits handlerStep (initLogCache old calls) labels s) : Reached s := by
  have hstart : Reached (initLogCache old calls) := by
    refine ⟨(initLogCache_inv old calls).toBase, ?_⟩
    rw [initLogCache, List.length_map]
    exact hold
  refine @Machine.visits_inv _ _ _ handlerStep Reached (fun _ => True) ?_ labels _ _ hstart
    (fun _ _ => trivial) hvisit
  rintro ⟨pre, label, post, out⟩ htakes hpre -
  cases label with
  | newLogItem =>
      have hpost : pre.log = post := congrArg Prod.fst (Option.some.inj htakes)
      exact hpost ▸ hpre.reached_log
  | clearLog =>
      have hpost : pre.clearLog = post := congrArg Prod.fst (Option.some.inj htakes)
      exact hpost ▸ hpre.reached_clearLog
  | handleMessage writes =>
      obtain ⟨t, ht, heq⟩ := Option.map_eq_some_iff.1 htakes
      have hpost : t = post := congrArg Prod.fst heq
      exact hpost ▸ hpre.handleWrites ht

theorem Reached.ready (h : Reached s) (hopen : s.mLogFile.isSome) : Ready s := by
  refine ⟨hopen, ?_⟩
  rcases h.opened with ⟨hnone, -⟩ | ⟨-, hready⟩
  · rw [hnone] at hopen
    cases hopen
  · exact hready

end LogState

/-- **When failing writes die out.** However the log came to be what it is, with any items logged
and any writes failed before: once its file is open and nothing more is logged from outside, the
handler gets to the end of its queue if and only if at some point it has handled as many messages as
there were, and those that it has logged itself, two for each exception and one for each argument of
an unknown type, and one for each time these made the log buffer too long. -/
theorem drains_iff {old : List Nat} (hold : old.length ≤ MAXLOGENTRIES + MAXLOGENTRIES / 2)
    {calls : List CacheCall} {labels : List HandlerLabel} {s : LogState}
    (hvisit : Machine.Visits handlerStep (LogState.initLogCache old calls) labels s)
    (hopen : s.mLogFile.isSome) {pattern : Pattern} (hfits : pattern.Fits s) :
    pattern.Drains s ↔ ∃ n, s.queue.length + pattern.logged n +
      trims (s.logbuffer.length + pattern.logged n) ≤ n := by
  have hreached := LogState.reached_of_visits hold hvisit
  exact Pattern.drains_of_ready (hreached.ready hopen) hreached.short hfits

/-- The file is open and one item was logged. -/
def oneItem : LogState :=
  { logbuffer := [.logged 0], queue := [.LOG_MESSAGE (.logged 0)], mLogFile := some [], count := 1 }

theorem visits_oneItem : Machine.Visits handlerStep (LogState.initLogCache [] [])
    [.handleMessage [], .newLogItem] oneItem :=
  Or.inr ⟨_, List.mem_of_getElem? (i := 1) rfl, rfl⟩

theorem ready_oneItem : oneItem.Ready := ⟨rfl, by simp [oneItem]⟩

/-- The first write comes to an argument of an unknown type and fails. -/
def firstFails : Pattern := fun n => if n = 0 then [⟨1, true⟩] else [{}]

theorem logged_firstFails (n : Nat) : firstFails.logged (n + 1) = 3 := by
  induction n with
  | zero => rfl
  | succ n ih =>
      rw [Pattern.logged_succ, ih]
      rfl

theorem fits_firstFails : firstFails.Fits oneItem := by
  intro n t ht hne
  have hmessages := (Pattern.drained_after ready_oneItem (by decide) n ht).messages
  have hlength := List.length_pos_of_ne_nil hne
  have hearly : n ≤ 3 := by
    cases n with
    | zero => exact Nat.zero_le 3
    | succ n =>
        rw [logged_firstFails] at hmessages
        have htrims : trims (oneItem.logbuffer.length + 3) = 0 := by decide
        have hone : oneItem.queue.length = 1 := rfl
        omega
  obtain rfl | rfl | rfl | rfl : n = 0 ∨ n = 1 ∨ n = 2 ∨ n = 3 := by omega
  · obtain rfl := Option.some.inj ht
    exact ⟨_, rfl⟩
  · obtain rfl := Option.some.inj ht
    exact ⟨_, rfl⟩
  · obtain rfl := Option.some.inj ht
    exact ⟨_, rfl⟩
  · obtain rfl := Option.some.inj ht
    exact ⟨_, rfl⟩

theorem drains_iff_firstFails : firstFails.Drains oneItem :=
  (drains_iff (Nat.zero_le _) visits_oneItem rfl fits_firstFails).2 ⟨4, by decide⟩

/-- Every write fails, as on a full disk. -/
def fullDisk : Pattern := fun _ => [⟨0, true⟩]

theorem logged_fullDisk (n : Nat) : fullDisk.logged n = 2 * n := by
  induction n with
  | zero => rfl
  | succ n ih =>
      rw [Pattern.logged_succ, ih]
      rfl

/-- Every message but `LOG_INIT` writes something, so that its first write can fail. -/
theorem fits_fullDisk : fullDisk.Fits oneItem := by
  intro n t ht hne
  have hdrained := Pattern.drained_after ready_oneItem (by decide) n ht
  have hbuffer : t.logbuffer ≠ [] := by
    intro hnil
    have hlength := hdrained.buffer
    have hone : oneItem.logbuffer.length = 1 := rfl
    have hmax : MAXLOGENTRIES = 1000 := rfl
    rw [hnil, List.length_nil, LogState.held, hone, hmax] at hlength
    split at hlength <;> omega
  obtain ⟨logbuffer, queue, mLogFile, count⟩ := t
  obtain ⟨file, hfile⟩ := Option.isSome_iff_exists.1 hdrained.opened
  obtain ⟨li, items, hitems⟩ := List.exists_cons_of_ne_nil hbuffer
  obtain ⟨m, rest, hqueue⟩ := List.exists_cons_of_ne_nil hne
  dsimp only at hfile hitems hqueue
  subst hfile hitems hqueue
  cases m with
  | LOG_INIT calls => exact absurd List.mem_cons_self (hdrained.ready calls)
  | LOG_MESSAGE li => exact ⟨_, rfl⟩
  | TRIM_LOG_FILE => exact ⟨_, rfl⟩

/-- With every write failing, one item is enough for messages without end. -/
theorem drains_counterexample :
    ¬ ∀ (old : List Nat) (calls : List CacheCall) (labels : List HandlerLabel) (s : LogState)
      (pattern : Pattern), old.length ≤ MAXLOGENTRIES + MAXLOGENTRIES / 2 →
      Machine.Visits handlerStep (LogState.initLogCache old calls) labels s →
      s.mLogFile.isSome → pattern.Fits s → pattern.Drains s := by
  intro hall
  have hdrains := hall [] [] _ oneItem fullDisk (Nat.zero_le _) visits_oneItem rfl fits_fullDisk
  obtain ⟨n, hn⟩ := (Pattern.drains_of_ready ready_oneItem (by decide) fits_fullDisk).1 hdrains
  have hone : oneItem.queue.length = 1 := rfl
  rw [logged_fullDisk, hone] at hn
  omega

end PortVpn.Log
