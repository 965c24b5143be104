import Mathlib.Data.List.Nodup
import Mathlib.Data.List.TakeWhile
import PortVpn.Lib.Machine

/-!
# The log buffer and its file

`VpnStatus.newLogItem` puts an item into the log buffer and sends it to `LogFileHandler`, which
writes it to the log file. When the buffer is shortened or cleared, `TRIM_LOG_FILE` makes the
handler write the file anew, from the buffer as it is when the message is handled. An item logged in
between is then in the file, and its own message writes it once more: `mirrors_of_visits` excludes
that step, and `mirrors_counterexample` is a run with it.

A log item is told from others by a number. The handler takes its messages in order; while it reads
the old file for `LOG_INIT`, other threads go on.
-/

set_option autoImplicit false

namespace PortVpn.Log

open PortVpn.Lib

/-- An item of the log buffer: one from before the log file was opened, or restored from the old
file, or one that was logged since `LOG_INIT` was sent. -/
inductive Entry where
  | earlier (n : Nat)
  | logged (n : Nat)
  deriving DecidableEq, Repr

def Entry.isLogged : Entry → Bool
  | earlier _ => false
  | logged _ => true

/-- A call of `newLogItem` from `readCacheContents`: a restored item, or a line about the reading
itself. -/
inductive CacheCall where
  | restoreLogItem (n : Nat)
  | log
  deriving DecidableEq, Repr

/-- The messages of `LogFileHandler`; `LOG_INIT` with what is left to do for the old file. -/
inductive LogMessage where
  | LOG_INIT (readLogCache : List CacheCall)
  | LOG_MESSAGE (li : Entry)
  | TRIM_LOG_FILE
  deriving DecidableEq, Repr

/-- `VpnStatus` with its handler: the buffer, the queue of messages, the log file once it is open,
and how many items were logged since `LOG_INIT`. -/
structure LogState where
  logbuffer : List Entry
  queue : List LogMessage
  mLogFile : Option (List Entry) := none
  count : Nat := 0
  deriving DecidableEq, Repr

def MAXLOGENTRIES : Nat := 1000

namespace LogState

/-- The end of `newLogItem`: a buffer that is too long is shortened. -/
def trimBuffer (s : LogState) : LogState :=
  if s.logbuffer.length > MAXLOGENTRIES + MAXLOGENTRIES / 2 then
    { s with
      logbuffer := s.logbuffer.drop (s.logbuffer.length - MAXLOGENTRIES)
      queue := s.queue ++ [.TRIM_LOG_FILE] }
  else s

/-- `VpnStatus.newLogItem(logItem, cachedLine)`. -/
def newLogItem (s : LogState) (logItem : Entry) (cachedLine : Bool) : LogState :=
  trimBuffer
    (if cachedLine then { s with logbuffer := logItem :: s.logbuffer }
     else
      { s with
        logbuffer := s.logbuffer ++ [logItem]
        queue := s.queue ++ [.LOG_MESSAGE logItem] })

/-- A new item is logged. -/
def log (s : LogState) : LogState :=
  { s.newLogItem (.logged s.count) false with count := s.count + 1 }

/-- `VpnStatus.clearLog`, with the line of `logInformation`. -/
def clearLog (s : LogState) : LogState :=
  let s := log { s with logbuffer := [] }
  { s with queue := s.queue ++ [.TRIM_LOG_FILE] }

/-- A call for the old file. -/
def cacheCall (s : LogState) : CacheCall → LogState
  | .restoreLogItem n => s.newLogItem (.earlier n) true
  | .log => s.log

/-- `LogFileHandler.handleMessage` for the first message; `none` when there is none, or when the
handler dies of an exception. -/
def handleMessage (s : LogState) : Option LogState :=
  match s.queue with
  | [] => none
  | .LOG_INIT (call :: calls) :: rest =>
      some (cacheCall { s with queue := .LOG_INIT calls :: rest } call)
  | .LOG_INIT [] :: rest =>
      if s.mLogFile.isSome then none else some { s with queue := rest, mLogFile := some [] }
  | .LOG_MESSAGE li :: rest =>
      some { s with queue := rest, mLogFile := s.mLogFile.map (· ++ [li]) }
  | .TRIM_LOG_FILE :: rest =>
      if s.mLogFile.isSome then some { s with queue := rest, mLogFile := some s.logbuffer }
      else none

/-- `VpnStatus.initLogCache`, with what is in the buffer and what will be read from the old file. -/
def initLogCache (old : List Nat) (calls : List CacheCall) : LogState :=
  { logbuffer := old.map .earlier, queue := [.LOG_INIT calls] }

end LogState

/-- What happens next: a thread logs an item or clears the log, or the handler goes on. -/
inductive LogLabel where
  | newLogItem
  | clearLog
  | handleMessage
  deriving DecidableEq, Repr

/-- The log as a machine. -/
def logStep : Machine LogState LogLabel Unit := fun s label =>
  match label with
  | .newLogItem => some (s.log, [])
  | .clearLog => some (s.clearLog, [])
  | .handleMessage => s.handleMessage.map fun s => (s, [])

/-! ## The statement -/

/-- Every item that was logged since `LOG_INIT` and is in the buffer is in the file once, and the
items are there in the order of the buffer. -/
structure Mirrors (s : LogState) (file : List Entry) : Prop where
  once : ∀ li ∈ s.logbuffer, li.isLogged → file.count li = 1
  order : (s.logbuffer.filter Entry.isLogged).Sublist file

/-- The file is written anew for the last time while items are still to be written behind. -/
def LogState.RewritesEarly (s : LogState) : Prop :=
  s.queue.head? = some .TRIM_LOG_FILE ∧ .TRIM_LOG_FILE ∉ s.queue.tail ∧ s.queue.tail ≠ []

instance (s : LogState) : Decidable s.RewritesEarly := by
  rw [LogState.RewritesEarly]
  infer_instance

/-! ## The invariant -/

/-- The items that the messages will write. -/
def pending (queue : List LogMessage) : List Entry :=
  queue.filterMap fun
    | .LOG_MESSAGE li => some li
    | _ => none

/-- The items whose messages are behind the last `TRIM_LOG_FILE`. -/
def behindTrim (queue : List LogMessage) : List Entry :=
  pending (queue.reverse.takeWhile (· ≠ .TRIM_LOG_FILE)).reverse

section Queue

variable {queue rest : List LogMessage} {m : LogMessage} {li : Entry}

theorem pending_append (queue rest : List LogMessage) :
    pending (queue ++ rest) = pending queue ++ pending rest :=
  List.filterMap_append

theorem behindTrim_append_message (queue : List LogMessage) (li : Entry) :
    behindTrim (queue ++ [.LOG_MESSAGE li]) = behindTrim queue ++ [li] := by
  rw [behindTrim, List.reverse_append, List.reverse_singleton, List.singleton_append,
    List.takeWhile_cons_of_pos (by simp), List.reverse_cons, pending_append]
  rfl

theorem behindTrim_append_trim (queue : List LogMessage) :
    behindTrim (queue ++ [.TRIM_LOG_FILE]) = [] := by
  rw [behindTrim, List.reverse_append, List.reverse_singleton, List.singleton_append,
    List.takeWhile_cons_of_neg (by simp)]
  rfl

/-- What is first in the queue does not count if there is a `TRIM_LOG_FILE` behind it. -/
theorem behindTrim_cons (h : .TRIM_LOG_FILE ∈ rest) :
    behindTrim (m :: rest) = behindTrim rest := by
  rw [behindTrim, List.reverse_cons, List.takeWhile_append, if_neg]
  · rfl
  · intro hall
    have hself : rest.reverse.takeWhile (· ≠ .TRIM_LOG_FILE) = rest.reverse :=
      (List.takeWhile_prefix _).eq_of_length hall
    have hmem := List.takeWhile_eq_self_iff.1 hself _ (List.mem_reverse.2 h)
    simp at hmem

end Queue

namespace LogState

variable {s : LogState}

/-- What holds of the items and of the queue, whatever was written. -/
structure Base (s : LogState) : Prop where
  distinct : (s.logbuffer.filter Entry.isLogged).Nodup
  fresh : ∀ n, .logged n ∈ s.logbuffer → n < s.count
  sent : ∀ li, .LOG_MESSAGE li ∈ s.queue → li.isLogged
  opened : (s.mLogFile = none ∧ ∃ calls rest, s.queue = .LOG_INIT calls :: rest ∧
      ∀ calls', .LOG_INIT calls' ∉ rest) ∨
    (s.mLogFile.isSome ∧ ∀ calls, .LOG_INIT calls ∉ s.queue)

/-- Without a `TRIM_LOG_FILE` to come, the file and the messages make up the buffer; with one, the
messages behind the last one are the end of the buffer. -/
structure Inv (s : LogState) : Prop extends Base s where
  mirror : .TRIM_LOG_FILE ∉ s.queue →
    (s.mLogFile.getD []).filter Entry.isLogged ++ pending s.queue =
      s.logbuffer.filter Entry.isLogged
  behind : .TRIM_LOG_FILE ∈ s.queue →
    behindTrim s.queue <:+ s.logbuffer.filter Entry.isLogged

/-- A message at the end of the queue that is not `LOG_INIT`. -/
theorem Base.opened_append (h : Base s) {m : LogMessage} (hm : ∀ calls, m ≠ .LOG_INIT calls) :
    (s.mLogFile = none ∧ ∃ calls rest, s.queue ++ [m] = .LOG_INIT calls :: rest ∧
      ∀ calls', .LOG_INIT calls' ∉ rest) ∨
    (s.mLogFile.isSome ∧ ∀ calls, .LOG_INIT calls ∉ s.queue ++ [m]) := by
  have hnot : ∀ queue : List LogMessage, (∀ calls, .LOG_INIT calls ∉ queue) →
      ∀ calls, .LOG_INIT calls ∉ queue ++ [m] := by
    intro queue hqueue calls hmem
    rcases List.mem_append.1 hmem with hmem | hmem
    · exact hqueue calls hmem
    · exact hm calls (List.mem_singleton.1 hmem).symm
  rcases h.opened with ⟨hfile, calls, rest, hqueue, hrest⟩ | ⟨hfile, hqueue⟩
  · exact Or.inl ⟨hfile, calls, rest ++ [m], by rw [hqueue]; rfl, hnot rest hrest⟩
  · exact Or.inr ⟨hfile, hnot s.queue hqueue⟩

theorem Base.shorten (h : Base s) {logbuffer : List Entry} (hsub : logbuffer.Sublist s.logbuffer) :
    Base { s with logbuffer := logbuffer } where
  distinct := h.distinct.sublist (hsub.filter _)
  fresh := fun n hn => h.fresh n (hsub.subset hn)
  sent := h.sent
  opened := h.opened

/-- Once the file is to be written anew, nothing is asked of what was written. -/
theorem Base.trim (h : Base s) : Inv { s with queue := s.queue ++ [.TRIM_LOG_FILE] } where
  distinct := h.distinct
  fresh := h.fresh
  sent := fun li hli => h.sent li (by simpa using hli)
  opened := h.opened_append (by simp)
  mirror := fun hnot => absurd (List.mem_append_right _ (List.mem_singleton_self _)) hnot
  behind := fun _ => by
    rw [behindTrim_append_trim]
    exact List.nil_suffix

/-- The buffer is as it was, or it is shortened and the file is to be written anew. -/
theorem trimBuffer_cases (s : LogState) : s.trimBuffer = s ∨
    ∃ logbuffer, logbuffer.Sublist s.logbuffer ∧ s.trimBuffer =
      { s with logbuffer := logbuffer, queue := s.queue ++ [.TRIM_LOG_FILE] } := by
  rw [trimBuffer]
  split
  · have hdrop := List.drop_sublist (s.logbuffer.length - MAXLOGENTRIES) s.logbuffer
    exact Or.inr ⟨_, hdrop, rfl⟩
  · exact Or.inl rfl

theorem Base.trimBuffer (h : Base s) : Base s.trimBuffer := by
  rcases s.trimBuffer_cases with heq | ⟨logbuffer, hsub, heq⟩
  · rw [heq]
    exact h
  · rw [heq]
    exact (h.shorten hsub).trim.toBase

theorem Inv.trimBuffer (h : Inv s) : Inv s.trimBuffer := by
  rcases s.trimBuffer_cases with heq | ⟨logbuffer, hsub, heq⟩
  · rw [heq]
    exact h
  · rw [heq]
    exact (h.shorten hsub).trim

/-- A new item at the end of the buffer and of the queue. -/
def push (s : LogState) : LogState :=
  { s with
    logbuffer := s.logbuffer ++ [.logged s.count]
    queue := s.queue ++ [.LOG_MESSAGE (.logged s.count)]
    count := s.count + 1 }

theorem trimBuffer_count (s : LogState) (count : Nat) :
    { s.trimBuffer with count := count } = trimBuffer { s with count := count } := by
  by_cases h : s.logbuffer.length > MAXLOGENTRIES + MAXLOGENTRIES / 2
  · simp only [LogState.trimBuffer, if_pos h]
  · simp only [LogState.trimBuffer, if_neg h]

theorem log_eq (s : LogState) : s.log = s.push.trimBuffer :=
  trimBuffer_count _ _

theorem filter_push (s : LogState) : s.push.logbuffer.filter Entry.isLogged =
    s.logbuffer.filter Entry.isLogged ++ [.logged s.count] :=
  List.filter_append ..

theorem Base.push (h : Base s) : Base s.push where
  distinct := by
    rw [filter_push]
    refine h.distinct.append (List.nodup_singleton _) ?_
    intro li hli hnew
    obtain rfl := List.mem_singleton.1 hnew
    exact absurd (h.fresh _ (List.mem_filter.1 hli).1) (lt_irrefl _)
  fresh := fun n hn => by
    rcases List.mem_append.1 hn with hn | hn
    · exact Nat.lt_succ_of_lt (h.fresh n hn)
    · cases List.mem_singleton.1 hn
      exact Nat.lt_succ_self _
  sent := fun li hli => by
    rcases List.mem_append.1 hli with hli | hli
    · exact h.sent li hli
    · cases List.mem_singleton.1 hli
      rfl
  opened := h.opened_append (by simp)

theorem Inv.push (h : Inv s) : Inv s.push where
  toBase := h.toBase.push
  mirror := fun hnot => by
    have hbefore : .TRIM_LOG_FILE ∉ s.queue := fun hmem => hnot (List.mem_append_left _ hmem)
    rw [filter_push, ← h.mirror hbefore, LogState.push, pending_append, ← List.append_assoc]
    rfl
  behind := fun hmem => by
    have hbefore : .TRIM_LOG_FILE ∈ s.queue := by
      rcases List.mem_append.1 hmem with hmem | hmem
      · exact hmem
      · cases List.mem_singleton.1 hmem
    obtain ⟨before, heq⟩ := h.behind hbefore
    refine ⟨before, ?_⟩
    rw [filter_push, ← heq, LogState.push, behindTrim_append_message, List.append_assoc]

theorem Inv.log (h : Inv s) : Inv s.log := by
  rw [log_eq]
  exact h.push.trimBuffer

theorem Inv.clearLog (h : Inv s) : Inv s.clearLog := by
  have hempty : Base { s with logbuffer := [] } := h.shorten (List.nil_sublist _)
  have hlog : Base (LogState.log { s with logbuffer := [] }) := by
    rw [log_eq]
    exact hempty.push.trimBuffer
  exact hlog.trim

theorem Inv.cacheCall (h : Inv s) (call : CacheCall) : Inv (s.cacheCall call) := by
  cases call with
  | restoreLogItem n =>
      have hcached : Inv { s with logbuffer := .earlier n :: s.logbuffer } :=
        { distinct := h.distinct
          fresh := fun k hk => h.fresh k (by simpa using hk)
          sent := h.sent
          opened := h.opened
          mirror := h.mirror
          behind := h.behind }
      exact hcached.trimBuffer
  | log => exact h.log

/-- A message is taken from the queue. -/
theorem behindTrim_suffix {m : LogMessage} {rest : List LogMessage} {li : List Entry}
    (h : .TRIM_LOG_FILE ∈ m :: rest → behindTrim (m :: rest) <:+ li)
    (hmem : .TRIM_LOG_FILE ∈ rest) : behindTrim rest <:+ li := by
  rw [← behindTrim_cons hmem]
  exact h (List.mem_cons_of_mem m hmem)

/-- **Step lemma** of the handler: every message but an early `TRIM_LOG_FILE` keeps the
invariant. -/
theorem Inv.handleMessage (h : Inv s) {t : LogState} (ht : s.handleMessage = some t)
    (hearly : ¬ s.RewritesEarly) : Inv t := by
  obtain ⟨logbuffer, queue, mLogFile, count⟩ := s
  cases queue with
  | nil => cases ht
  | cons m rest =>
      have hrest : ∀ li, .LOG_MESSAGE li ∈ rest → li.isLogged := fun li hli =>
        h.sent li (List.mem_cons_of_mem m hli)
      cases m with
      | LOG_INIT calls =>
          -- the file is not open yet
          have hopened : mLogFile = none ∧ ∀ calls', .LOG_INIT calls' ∉ rest := by
            rcases h.opened with ⟨hnone, calls', rest', hqueue, hnot⟩ | ⟨-, hnot⟩
            · obtain ⟨-, rfl⟩ := List.cons.inj hqueue
              exact ⟨hnone, hnot⟩
            · exact absurd List.mem_cons_self (hnot calls)
          obtain ⟨rfl, hnot⟩ := hopened
          cases calls with
          | nil =>
              obtain rfl := Option.some.inj ht
              exact {
                distinct := h.distinct
                fresh := h.fresh
                sent := hrest
                opened := Or.inr ⟨rfl, hnot⟩
                mirror := fun hmem => h.mirror (by simpa using hmem)
                behind := behindTrim_suffix h.behind }
          | cons call calls =>
              obtain rfl := Option.some.inj ht
              apply Inv.cacheCall
              exact {
                distinct := h.distinct
                fresh := h.fresh
                sent := fun li hli => hrest li (by simpa using hli)
                opened := Or.inl ⟨rfl, calls, rest, rfl, hnot⟩
                mirror := fun hmem => h.mirror (by simpa using hmem)
                behind := fun hmem => by
                  have hmem : .TRIM_LOG_FILE ∈ rest := by simpa using hmem
                  rw [behindTrim_cons hmem]
                  exact behindTrim_suffix h.behind hmem }
      | LOG_MESSAGE li =>
          have hopened : ∃ file, mLogFile = some file := by
            rcases h.opened with ⟨-, calls, rest', hqueue, -⟩ | ⟨hsome, -⟩
            · cases hqueue
            · exact Option.isSome_iff_exists.1 hsome
          obtain ⟨file, rfl⟩ := hopened
          obtain rfl := Option.some.inj ht
          have hnot : ∀ calls, .LOG_INIT calls ∉ rest := by
            rcases h.opened with ⟨hnone, -⟩ | ⟨-, hnot⟩
            · cases hnone
            · exact fun calls hmem => hnot calls (List.mem_cons_of_mem _ hmem)
          exact {
            distinct := h.distinct
            fresh := h.fresh
            sent := hrest
            opened := Or.inr ⟨rfl, hnot⟩
            mirror := fun hmem => by
              have hlogged : li.isLogged = true := h.sent li List.mem_cons_self
              rw [← h.mirror (by simpa using hmem)]
              simp [List.filter_append, hlogged, pending]
            behind := behindTrim_suffix h.behind }
      | TRIM_LOG_FILE =>
          have hopened : mLogFile.isSome ∧ ∀ calls, .LOG_INIT calls ∉ rest := by
            rcases h.opened with ⟨-, calls, rest', hqueue, -⟩ | ⟨hsome, hnot⟩
            · cases hqueue
            · exact ⟨hsome, fun calls hmem => hnot calls (List.mem_cons_of_mem _ hmem)⟩
          obtain ⟨hsome, hnot⟩ := hopened
          obtain ⟨file, rfl⟩ := Option.isSome_iff_exists.1 hsome
          obtain rfl := Option.some.inj ht
          exact {
            distinct := h.distinct
            fresh := h.fresh
            sent := hrest
            opened := Or.inr ⟨rfl, hnot⟩
            mirror := fun hmem => by
              have hnil : rest = [] := by
                by_contra hne
                exact hearly ⟨rfl, hmem, hne⟩
              rw [hnil]
              exact List.append_nil _
            behind := behindTrim_suffix h.behind }

theorem initLogCache_inv (old : List Nat) (calls : List CacheCall) :
    Inv (initLogCache old calls) where
  distinct := by simp [initLogCache, List.filter_map, Function.comp_def, Entry.isLogged]
  fresh := by simp [initLogCache]
  sent := by simp [initLogCache]
  opened := Or.inl ⟨rfl, calls, [], rfl, by simp⟩
  mirror := fun _ => by
    simp [initLogCache, pending, List.filter_map, Function.comp_def, Entry.isLogged]
  behind := by simp [initLogCache]

/-- The invariant, once nothing is left in the queue. -/
theorem Inv.mirrors (h : Inv s) (hqueue : s.queue = []) :
    ∃ file, s.mLogFile = some file ∧ Mirrors s file := by
  have hopened : s.mLogFile.isSome := by
    rcases h.opened with ⟨-, calls, rest, hcons, -⟩ | ⟨hsome, -⟩
    · rw [hqueue] at hcons
      cases hcons
    · exact hsome
  obtain ⟨file, hfile⟩ := Option.isSome_iff_exists.1 hopened
  have hmirror := h.mirror (by simp [hqueue])
  rw [hfile, hqueue, Option.getD_some, pending, List.filterMap_nil, List.append_nil] at hmirror
  refine ⟨file, hfile, ?_, ?_⟩
  · intro li hli hlogged
    rw [← List.count_filter hlogged, hmirror]
    exact List.count_eq_one_of_mem h.distinct (List.mem_filter.2 ⟨hli, hlogged⟩)
  · rw [← hmirror]
    exact List.filter_sublist

end LogState

/-! ## Runs -/

/-- **The file mirrors the buffer** in every state with an empty queue that a run visits, if the
handler never writes the file anew for the last time while items are still to be written. -/
theorem mirrors_of_visits (old : List Nat) (calls : List CacheCall) (labels : List LogLabel)
    (hclean : ∀ x ∈ Machine.history logStep (LogState.initLogCache old calls) labels,
      x.label = .handleMessage → ¬ x.pre.RewritesEarly)
    {s : LogState} (hvisit : Machine.Visits logStep (LogState.initLogCache old calls) labels s)
    (hqueue : s.queue = []) : ∃ file, s.mLogFile = some file ∧ Mirrors s file := by
  apply LogState.Inv.mirrors _ hqueue
  refine Machine.visits_inv ?_ (LogState.initLogCache_inv old calls) hclean hvisit
  rintro ⟨pre, label, post, out⟩ htakes hinv hearly
  cases label with
  | newLogItem =>
      have hpost : pre.log = post := congrArg Prod.fst (Option.some.inj htakes)
      exact hpost ▸ hinv.log
  | clearLog =>
      have hpost : pre.clearLog = post := congrArg Prod.fst (Option.some.inj htakes)
      exact hpost ▸ hinv.clearLog
  | handleMessage =>
      obtain ⟨t, ht, heq⟩ := Option.map_eq_some_iff.1 htakes
      have hpost : t = post := congrArg Prod.fst heq
      exact hpost ▸ hinv.handleMessage ht (hearly rfl)

/-- The log is cleared, and the handler is done with that before the next item is logged. -/
def clearing : List LogLabel :=
  [.handleMessage, .newLogItem, .handleMessage, .clearLog, .handleMessage, .handleMessage,
    .newLogItem, .handleMessage]

theorem mirrors_of_visits_clearing :
    ∃ file, some [.logged 1, .logged 2] = some file ∧
      Mirrors ⟨[.logged 1, .logged 2], [], some [.logged 1, .logged 2], 3⟩ file :=
  mirrors_of_visits [7] [] clearing (by decide)
    (Or.inr ⟨_, List.mem_of_getElem? (i := 7) rfl, rfl⟩) rfl

/-- **An item that is written twice.** It is logged after the buffer was cleared and before the file
is written anew. -/
theorem mirrors_counterexample :
    ¬ ∀ (old : List Nat) (calls : List CacheCall) (labels : List LogLabel) (s : LogState),
      Machine.Visits logStep (LogState.initLogCache old calls) labels s → s.queue = [] →
      ∃ file, s.mLogFile = some file ∧ Mirrors s file := by
  intro h
  obtain ⟨file, hfile, hmirrors⟩ := h [] []
    [.handleMessage, .clearLog, .newLogItem, .handleMessage, .handleMessage, .handleMessage]
    ⟨[.logged 0, .logged 1], [], some [.logged 0, .logged 1, .logged 1], 2⟩
    (Or.inr ⟨_, List.mem_of_getElem? (i := 5) rfl, rfl⟩) rfl
  obtain rfl := Option.some.inj hfile
  exact absurd (hmirrors.once (.logged 1) (by decide) rfl) (by decide)

end PortVpn.Log
