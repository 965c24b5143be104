import PortVpn.Lib.Machine
import PortVpn.Log.LogItem
import PortVpn.Management.ProcessCommand

/-!
# The listeners of the status

`VpnStatus` keeps three lists of listeners and calls every element of one of them for an event. A
listener is registered while it was added at least once since it was last removed. It hears every
event of its kind once exactly when it stands in its list once, and `add` keeps it so only for the
state listeners: `addStateListener` looks whether the listener is there, `addLogListener` and
`addByteCountListener` do not, and every removal takes one occurrence out.

So in a run of additions, removals and events, every registered listener hears every event once, and
nobody else does, exactly when no log or byte-count listener is added while it is registered
(`heard_once_iff`). The service adds itself on every start command and removes itself at the end
only (`issued`).
-/

set_option autoImplicit false

namespace PortVpn.Management

open PortVpn.Lib PortVpn.Log

/-- `ConnectionStatus.toString`. -/
def ConnectionStatus.toText : ConnectionStatus → Text
  | .connected => "LEVEL_CONNECTED".toList
  | .vpnPaused => "LEVEL_VPNPAUSED".toList
  | .connectingServerReplied => "LEVEL_CONNECTING_SERVER_REPLIED".toList
  | .connectingNoServerReplyYet => "LEVEL_CONNECTING_NO_SERVER_REPLY_YET".toList
  | .noNetwork => "LEVEL_NONETWORK".toList
  | .notConnected => "LEVEL_NOTCONNECTED".toList
  | .start => "LEVEL_START".toList
  | .authFailed => "LEVEL_AUTH_FAILED".toList
  | .waitingForUserInput => "LEVEL_WAITING_FOR_USER_INPUT".toList
  | .unknownLevel => "UNKNOWN_LEVEL".toList

/-! ## The source -/

/-- The three interfaces of listeners. -/
inductive ListenerKind where
  | log
  | state
  | byteCount
  deriving DecidableEq, Repr

/-- A call of a listener's method, with its arguments. -/
inductive Heard where
  | newLog (logItem : LogItem)
  | updateState (state logmessage : Text) (localizedResId : StateText) (level : ConnectionStatus)
  | updateByteCount (count : ByteCount)
  deriving DecidableEq

/-- The interface whose method is called. -/
def Heard.kind : Heard → ListenerKind
  | newLog _ => .log
  | updateState .. => .state
  | updateByteCount _ => .byteCount

/-- A listener and what it is told. -/
structure Call (ι : Type) where
  listener : ι
  heard : Heard
  deriving DecidableEq

/-- What `VpnStatus` passes on to listeners. -/
inductive StatusEvent where
  | newLogItem (logItem : LogItem)
  | updateStateString (state msg : Text) (resid : StateText) (level : ConnectionStatus) (now : Int64)
  | updateByteCount (received sent : Int)

/-- The listeners of `VpnStatus`, beside what it has been told. -/
structure StatusListeners (ι : Type) where
  status : VpnStatus := {}
  logListener : List ι := []
  stateListener : List ι := []
  byteCountListener : List ι := []

/-- A call of one of the methods of `VpnStatus` about listeners. -/
inductive Op (ι : Type) where
  | add (k : ListenerKind) (l : ι)
  | remove (k : ListenerKind) (l : ι)
  | event (e : StatusEvent)

/-- The listener was added at least once since it was last removed. -/
def Registered {ι : Type} (k : ListenerKind) (l : ι) : List (Op ι) → Prop :=
  Since (fun op => op = .add k l) fun op => op = .remove k l

theorem registered_concat {ι : Type} {k : ListenerKind} {l : ι} {ops : List (Op ι)} {op : Op ι} :
    Registered k l (ops ++ [op]) ↔ op = .add k l ∨ (op ≠ .remove k l ∧ Registered k l ops) := by
  rw [Registered, since_append, since_singleton, List.forall_mem_singleton]

/-- The item for a state that is ignored. -/
def ignoredItem (state msg : Text) (level : ConnectionStatus) (now : Int64) : LogItem where
  mLevel := some .DEBUG
  mMessage := some ("Ignoring OpenVPN Status in CONNECTED state (".toList ++ state ++ "->".toList ++
    level.toText ++ "): ".toList ++ msg)
  logtime := now

namespace StatusListeners

variable {ι : Type}

def addLogListener (s : StatusListeners ι) (ll : ι) : StatusListeners ι × List (Call ι) :=
  ({ s with logListener := s.logListener ++ [ll] }, [])

def addByteCountListener (s : StatusListeners ι) (bcl : ι) : StatusListeners ι × List (Call ι) :=
  ({ s with byteCountListener := s.byteCountListener ++ [bcl] },
    [⟨bcl, .updateByteCount s.status.mlastByteCount⟩])

def newLogItem (s : StatusListeners ι) (logItem : LogItem) : List (Call ι) :=
  s.logListener.map fun ll => ⟨ll, .newLog logItem⟩

def updateStateString (s : StatusListeners ι) (state msg : Text) (resid : StateText)
    (level : ConnectionStatus) (now : Int64) : StatusListeners ι × List (Call ι) :=
  if s.status.ignores state then (s, s.newLogItem (ignoredItem state msg level now))
  else
    ({ s with status := s.status.updateStateStringWith state msg resid level },
      s.stateListener.map fun sl => ⟨sl, .updateState state msg resid level⟩)

def updateByteCount (s : StatusListeners ι) (received sent : Int) :
    StatusListeners ι × List (Call ι) :=
  let status := s.status.updateByteCount received sent
  ({ s with status := status },
    s.byteCountListener.map fun bcl => ⟨bcl, .updateByteCount status.mlastByteCount⟩)

def event (s : StatusListeners ι) : StatusEvent → StatusListeners ι × List (Call ι)
  | .newLogItem logItem => (s, s.newLogItem logItem)
  | .updateStateString state msg resid level now => s.updateStateString state msg resid level now
  | .updateByteCount received sent => s.updateByteCount received sent

/-- The list of a kind. -/
def listeners (s : StatusListeners ι) : ListenerKind → List ι
  | .log => s.logListener
  | .state => s.stateListener
  | .byteCount => s.byteCountListener

/-- What the listeners are told of an event. A state that is ignored becomes a log item. -/
def heard (s : StatusListeners ι) : StatusEvent → Heard
  | .newLogItem logItem => .newLog logItem
  | .updateStateString state msg resid level now =>
      if s.status.ignores state then .newLog (ignoredItem state msg level now)
      else .updateState state msg resid level
  | .updateByteCount received sent =>
      .updateByteCount (s.status.updateByteCount received sent).mlastByteCount

/-- An event calls every element of one list, and changes no list. -/
theorem event_spec (s : StatusListeners ι) (e : StatusEvent) :
    (s.event e).2 = (s.listeners (s.heard e).kind).map (fun l => ⟨l, s.heard e⟩) ∧
      (s.event e).1.listeners = s.listeners := by
  cases e with
  | newLogItem logItem => exact ⟨rfl, rfl⟩
  | updateByteCount received sent =>
      refine ⟨rfl, ?_⟩
      funext k
      cases k <;> rfl
  | updateStateString state msg resid level now =>
      by_cases h : s.status.ignores state
      · simp [event, updateStateString, heard, h, newLogItem, Heard.kind, listeners]
      · refine ⟨by simp [event, updateStateString, heard, h, Heard.kind, listeners], ?_⟩
        funext k
        cases k <;> simp [event, updateStateString, h, listeners]

/-- There is an event of every kind. -/
theorem exists_event (s : StatusListeners ι) (k : ListenerKind) :
    ∃ e, (s.heard e).kind = k := by
  cases k with
  | log => exact ⟨.newLogItem ⟨some .INFO, none, none, 0, 0, -1⟩, rfl⟩
  | byteCount => exact ⟨.updateByteCount 0 0, rfl⟩
  | state =>
      refine ⟨.updateStateString [] [] .noprocess .start 0, ?_⟩
      have hignores : s.status.ignores [] = false := by simp [VpnStatus.ignores]
      simp [heard, hignores, Heard.kind]

variable [DecidableEq ι]

/-- The last state that is passed on is never null. -/
def addStateListener (s : StatusListeners ι) (sl : ι) : StatusListeners ι × List (Call ι) :=
  if sl ∈ s.stateListener then (s, [])
  else
    ({ s with stateListener := s.stateListener ++ [sl] },
      [⟨sl, .updateState s.status.mLaststate s.status.mLaststatemsg s.status.mLastStateresid
        s.status.mLastLevel⟩])

def removeLogListener (s : StatusListeners ι) (ll : ι) : StatusListeners ι :=
  { s with logListener := s.logListener.erase ll }

def removeStateListener (s : StatusListeners ι) (sl : ι) : StatusListeners ι :=
  { s with stateListener := s.stateListener.erase sl }

def removeByteCountListener (s : StatusListeners ι) (bcl : ι) : StatusListeners ι :=
  { s with byteCountListener := s.byteCountListener.erase bcl }

def add (s : StatusListeners ι) : ListenerKind → ι → StatusListeners ι × List (Call ι)
  | .log, l => s.addLogListener l
  | .state, l => s.addStateListener l
  | .byteCount, l => s.addByteCountListener l

def remove (s : StatusListeners ι) : ListenerKind → ι → StatusListeners ι
  | .log, l => s.removeLogListener l
  | .state, l => s.removeStateListener l
  | .byteCount, l => s.removeByteCountListener l

def step (s : StatusListeners ι) : Op ι → StatusListeners ι × List (Call ι)
  | .add k l => s.add k l
  | .remove k l => (s.remove k l, [])
  | .event e => s.event e

/-- The state after a run that starts without listeners. -/
def run (ops : List (Op ι)) : StatusListeners ι := ops.foldl (fun s op => (s.step op).1) {}

theorem run_concat (ops : List (Op ι)) (op : Op ι) :
    run (ops ++ [op]) = ((run ops).step op).1 := by
  simp [run]

/-- The list of a kind after an addition. -/
theorem listeners_add (s : StatusListeners ι) (k : ListenerKind) (l : ι) (k' : ListenerKind) :
    (s.add k l).1.listeners k' =
      if k' = k ∧ (k = .state → l ∉ s.listeners .state) then s.listeners k' ++ [l]
      else s.listeners k' := by
  cases k with
  | log => cases k' <;> rfl
  | byteCount => cases k' <;> rfl
  | state =>
      by_cases h : l ∈ s.stateListener
      · cases k' <;> simp [add, addStateListener, listeners, h]
      · cases k' <;> simp [add, addStateListener, listeners, h]

theorem listeners_remove (s : StatusListeners ι) (k : ListenerKind) (l : ι) (k' : ListenerKind) :
    (s.remove k l).listeners k' =
      if k' = k then (s.listeners k').erase l else s.listeners k' := by
  cases k <;> cases k' <;> rfl

/-- An addition calls nobody but the listener that is added. -/
theorem listener_of_add {s : StatusListeners ι} {k : ListenerKind} {l : ι} {c : Call ι}
    (h : c ∈ (s.add k l).2) : c.listener = l := by
  cases k with
  | log => cases h
  | byteCount => rw [List.mem_singleton.1 h]
  | state =>
      rw [add, addStateListener] at h
      split at h
      · cases h
      · rw [List.mem_singleton.1 h]

/-! ## Every event once -/

/-- After these calls, an event is passed once to every registered listener of its kind and to
nobody else, and no other call is passed on but the greeting of a listener that is added. -/
structure HeardOnce (ops : List (Op ι)) : Prop where
  registered : ∀ e l, Registered ((run ops).heard e).kind l ops →
    ((run ops).event e).2.filter (fun c => c.listener = l) = [⟨l, (run ops).heard e⟩]
  unregistered : ∀ e l, ¬ Registered ((run ops).heard e).kind l ops →
    ((run ops).event e).2.filter (fun c => c.listener = l) = []
  others : ∀ op, (∀ e, op ≠ .event e) →
    ∀ c ∈ ((run ops).step op).2, ∃ k, op = .add k c.listener

/-- Every registered listener stands in its list once, and nobody else does. -/
def Exact (ops : List (Op ι)) : Prop :=
  ∀ k l, (Registered k l ops → ((run ops).listeners k).count l = 1) ∧
    (¬ Registered k l ops → ((run ops).listeners k).count l = 0)

/-- A call that adds no log or byte-count listener which is registered. -/
def FreshAdd (ops : List (Op ι)) (op : Op ι) : Prop :=
  ∀ k l, op = .add k l → k ≠ .state → ¬ Registered k l ops

theorem filter_calls (s : StatusListeners ι) (e : StatusEvent) (l : ι) :
    (s.event e).2.filter (fun c => c.listener = l) =
      List.replicate ((s.listeners (s.heard e).kind).count l) ⟨l, s.heard e⟩ := by
  rw [(s.event_spec e).1, List.filter_map]
  have hsame : ((fun c : Call ι => decide (c.listener = l)) ∘
      fun l' => (⟨l', s.heard e⟩ : Call ι)) = fun l' => decide (l' = l) := rfl
  rw [hsame, List.filter_eq, List.map_replicate]

theorem heardOnce_iff (ops : List (Op ι)) : HeardOnce ops ↔ Exact ops := by
  constructor
  · intro h k l
    -- an event of the kind tells how often a listener is in the list
    obtain ⟨e, rfl⟩ := (run ops).exists_event k
    constructor
    · intro hl
      have honce := h.registered e l hl
      rw [filter_calls] at honce
      simpa using congrArg List.length honce
    · intro hl
      have hnone := h.unregistered e l hl
      rwa [filter_calls, List.replicate_eq_nil_iff] at hnone
  · intro h
    refine ⟨?_, ?_, ?_⟩
    · intro e l hl
      rw [filter_calls, (h _ l).1 hl]
      rfl
    · intro e l hl
      rw [filter_calls, (h _ l).2 hl]
      rfl
    · intro op hop c hc
      cases op with
      | add k l => exact ⟨k, by rw [listener_of_add hc]⟩
      | remove k l => cases hc
      | event e => exact absurd rfl (hop e)

theorem exact_nil : Exact ([] : List (Op ι)) := by
  intro k l
  constructor
  · intro h
    exact absurd h not_since_nil
  · intro _
    cases k <;> rfl

/-- An event, and a removal, keep every registered listener once in its list. -/
theorem Exact.concat_event {ops : List (Op ι)} (h : Exact ops) (e : StatusEvent) :
    Exact (ops ++ [.event e]) := by
  intro k l
  rw [registered_concat, run_concat, step, ((run ops).event_spec e).2]
  simpa using h k l

theorem Exact.concat_remove {ops : List (Op ι)} (h : Exact ops) (k : ListenerKind) (l : ι) :
    Exact (ops ++ [.remove k l]) := by
  intro k' l'
  rw [registered_concat, run_concat, step, listeners_remove]
  by_cases hk : k' = k
  · rw [if_pos hk]
    by_cases hl : l' = l
    · subst hk hl
      refine ⟨fun hreg => by simp at hreg, fun _ => ?_⟩
      rw [List.count_erase_self]
      by_cases hreg : Registered k' l' ops
      · rw [(h k' l').1 hreg]
      · rw [(h k' l').2 hreg]
    · rw [List.count_erase_of_ne hl]
      simpa [hl, Ne.symm hl] using h k' l'
  · rw [if_neg hk]
    simpa [Ne.symm hk] using h k' l'

/-- An addition does so exactly when it is fresh. -/
theorem Exact.concat_add_iff {ops : List (Op ι)} (h : Exact ops) (k : ListenerKind) (l : ι) :
    Exact (ops ++ [.add k l]) ↔ (k ≠ .state → ¬ Registered k l ops) := by
  constructor
  · intro hadd hk hreg
    -- a listener that was in its list is counted twice
    have hcount := (hadd k l).1 (registered_concat.2 (Or.inl rfl))
    rw [run_concat, step, listeners_add, if_pos ⟨rfl, fun hs => absurd hs hk⟩, List.count_append,
      (h k l).1 hreg] at hcount
    simp at hcount
  · intro hfresh k' l'
    rw [registered_concat, run_concat, step, listeners_add]
    by_cases hsame : k' = k ∧ l' = l
    · obtain ⟨rfl, rfl⟩ := hsame
      refine ⟨fun _ => ?_, fun hnot => absurd (Or.inl rfl) hnot⟩
      by_cases hreg : Registered k' l' ops
      · -- only a state listener may be registered already, and then it is in its list
        have hk : k' = .state := by
          by_contra hne
          exact hfresh hne hreg
        subst hk
        have hcount := (h .state l').1 hreg
        have hmem : l' ∈ (run ops).listeners .state := by
          apply List.count_pos_iff.1
          omega
        rw [if_neg fun hnew => hnew.2 rfl hmem, hcount]
      -- one that was not is counted once
      · have hnot := (h k' l').2 hreg
        have hmem : l' ∉ (run ops).listeners k' := List.count_eq_zero.1 hnot
        rw [if_pos ⟨rfl, fun hs => hs ▸ hmem⟩, List.count_append, hnot]
        simp
    -- the other listeners are counted as before
    · have hop : Op.add k l ≠ .add k' l' := by
        intro hop
        cases hop
        exact hsame ⟨rfl, rfl⟩
      have hcount : (if k' = k ∧ (k = .state → l ∉ (run ops).listeners .state) then
          (run ops).listeners k' ++ [l] else (run ops).listeners k').count l' =
            ((run ops).listeners k').count l' := by
        split
        case isTrue hnew =>
          have hl : l ≠ l' := fun hl => hsame ⟨hnew.1, hl.symm⟩
          simp [hl]
        case isFalse => rfl
      rw [hcount]
      simpa [hop] using h k' l'

theorem exact_concat {ops : List (Op ι)} (op : Op ι) (h : Exact ops) :
    Exact (ops ++ [op]) ↔ FreshAdd ops op := by
  cases op with
  | event e => exact iff_of_true (h.concat_event e) (fun k l hop => by cases hop)
  | remove k l => exact iff_of_true (h.concat_remove k l) (fun k' l' hop => by cases hop)
  | add k l =>
      rw [h.concat_add_iff]
      constructor
      · intro hfresh k' l' hop
        cases hop
        exact hfresh
      · intro hfresh
        exact hfresh k l rfl

/-- Throughout a run every event is heard once exactly when no log or byte-count listener is added
while it is registered. -/
theorem heard_once_iff (ops : List (Op ι)) :
    (∀ p, p <+: ops → HeardOnce p) ↔ ∀ p op, p ++ [op] <+: ops → FreshAdd p op := by
  rw [← forall_prefixes_iff exact_nil (fun p op h => exact_concat op h) ops]
  exact forall₂_congr fun p _ => heardOnce_iff p

end StatusListeners

/-! ## The service -/

/-- The fields of `OpenVPNService` that decide which listeners it adds and removes. -/
structure ListeningService (ι : Type) where
  this : ι
  mDeviceStateReceiver : Option ι := none
  mStarting : Bool := false
  mNotificationAlwaysVisible : Bool := false

/-- The calls of the service that add or remove listeners, and the events between them.
`startOpenVPN` sets `mStarting` around `stopOldOpenVPNProcess`; a receiver is made for every call of
`registerDeviceStateReceiver`. -/
inductive ServiceCall (ι : Type) where
  | onStartCommand (alwaysShowNotification : Bool)
  | setStarting (starting : Bool)
  | registerDeviceStateReceiver (receiver : ι)
  | unregisterDeviceStateReceiver
  | endVpnService
  | event (e : StatusEvent)

namespace ListeningService

variable {ι : Type}

def onStartCommand (v : ListeningService ι) (alwaysShowNotification : Bool) :
    ListeningService ι × List (Op ι) :=
  ({ v with mNotificationAlwaysVisible := v.mNotificationAlwaysVisible || alwaysShowNotification },
    [.add .state v.this, .add .byteCount v.this])

def registerDeviceStateReceiver (v : ListeningService ι) (receiver : ι) :
    ListeningService ι × List (Op ι) :=
  ({ v with mDeviceStateReceiver := some receiver }, [.add .byteCount receiver])

def unregisterDeviceStateReceiver (v : ListeningService ι) : ListeningService ι × List (Op ι) :=
  ({ v with mDeviceStateReceiver := none },
    v.mDeviceStateReceiver.toList.map fun receiver => .remove .byteCount receiver)

def endVpnService (v : ListeningService ι) : ListeningService ι × List (Op ι) :=
  let (v', ops) := v.unregisterDeviceStateReceiver
  (v', .remove .byteCount v.this :: ops ++
    if !v.mStarting && !v.mNotificationAlwaysVisible then [.remove .state v.this] else [])

def call (v : ListeningService ι) : ServiceCall ι → ListeningService ι × List (Op ι)
  | .onStartCommand alwaysShowNotification => v.onStartCommand alwaysShowNotification
  | .setStarting starting => ({ v with mStarting := starting }, [])
  | .registerDeviceStateReceiver receiver => v.registerDeviceStateReceiver receiver
  | .unregisterDeviceStateReceiver => v.unregisterDeviceStateReceiver
  | .endVpnService => v.endVpnService
  | .event e => (v, [.event e])

/-- The calls of `VpnStatus` that a run of the service makes. -/
def issued (v : ListeningService ι) : List (ServiceCall ι) → List (Op ι)
  | [] => []
  | c :: calls => (v.call c).2 ++ (v.call c).1.issued calls

/-- The service after its calls. -/
def after (v : ListeningService ι) (calls : List (ServiceCall ι)) : ListeningService ι :=
  calls.foldl (fun v c => (v.call c).1) v

theorem issued_concat (calls : List (ServiceCall ι)) (c : ServiceCall ι) :
    ∀ v : ListeningService ι,
      v.issued (calls ++ [c]) = v.issued calls ++ ((v.after calls).call c).2 := by
  induction calls with
  | nil =>
      intro v
      simp [issued, after]
  | cons d calls ih =>
      intro v
      rw [List.cons_append, issued, ih, issued, List.append_assoc]
      rfl

theorem after_concat (v : ListeningService ι) (calls : List (ServiceCall ι)) (c : ServiceCall ι) :
    v.after (calls ++ [c]) = ((v.after calls).call c).1 := by
  simp [after]

/-- The receivers that a run makes. -/
def receivers (calls : List (ServiceCall ι)) : List ι :=
  calls.filterMap fun c => match c with
    | .registerDeviceStateReceiver receiver => some receiver
    | _ => none

theorem after_spec (v : ListeningService ι) (hv : v.mDeviceStateReceiver = none)
    (calls : List (ServiceCall ι)) :
    (v.after calls).this = v.this ∧
      ∀ r ∈ (v.after calls).mDeviceStateReceiver, r ∈ receivers calls := by
  induction calls using List.reverseRecOn with
  | nil => exact ⟨rfl, by simp [after, hv]⟩
  | append_singleton calls c ih =>
      obtain ⟨hthis, hreceiver⟩ := ih
      have hlater : ∀ r ∈ (v.after calls).mDeviceStateReceiver, r ∈ receivers (calls ++ [c]) := by
        intro r hr
        rw [receivers, List.filterMap_append]
        exact List.mem_append_left _ (hreceiver r hr)
      rw [after_concat]
      cases c with
      | onStartCommand b => exact ⟨hthis, hlater⟩
      | setStarting b => exact ⟨hthis, hlater⟩
      | event e => exact ⟨hthis, hlater⟩
      | unregisterDeviceStateReceiver => exact ⟨hthis, fun r hr => by cases hr⟩
      | endVpnService => exact ⟨hthis, fun r hr => by cases hr⟩
      | registerDeviceStateReceiver r =>
          refine ⟨hthis, fun r' hr' => ?_⟩
          cases hr'
          simp [receivers]

/-- A start command. -/
def Starts (c : ServiceCall ι) : Prop := ∃ b, c = .onStartCommand b

/-- The service was started at least once since it last ended. -/
def Started : List (ServiceCall ι) → Prop := Since Starts fun c => c = .endVpnService

/-- A start command registers the service for the byte count, and its end takes that back. -/
theorem call_spec {v : ListeningService ι} (hreceiver : ∀ r ∈ v.mDeviceStateReceiver, r ≠ v.this)
    (c : ServiceCall ι) (hnew : v.this ∉ receivers [c]) :
    (Registered .byteCount v.this (v.call c).2 ↔ Starts c) ∧
      ((∀ op ∈ (v.call c).2, ¬ op = .remove .byteCount v.this) ↔ ¬ c = .endVpnService) := by
  cases c with
  | onStartCommand b =>
      refine ⟨iff_of_true ?_ ⟨b, rfl⟩, by simp [call, onStartCommand]⟩
      exact ⟨[.add .state v.this], _, [], rfl, rfl, by simp⟩
  | setStarting b => simp [call, Registered, not_since_nil, Starts]
  | event e => simp [call, Registered, since_singleton, Starts]
  | registerDeviceStateReceiver r =>
      have hne : r ≠ v.this := by
        rintro rfl
        exact hnew (by simp [receivers])
      simp [call, registerDeviceStateReceiver, Registered, since_singleton, Starts, hne]
  | unregisterDeviceStateReceiver =>
      cases hr : v.mDeviceStateReceiver with
      | none => simp [call, unregisterDeviceStateReceiver, hr, Registered, not_since_nil, Starts]
      | some r =>
          simp [call, unregisterDeviceStateReceiver, hr, Registered, since_singleton, Starts,
            hreceiver r hr]
  | endVpnService =>
      refine ⟨iff_of_false ?_ (by simp [Starts]), by simp [call, endVpnService]⟩
      intro h
      obtain ⟨op, hop, hadd⟩ := h.exists_mem
      simp [call, endVpnService, unregisterDeviceStateReceiver, hadd] at hop

section

variable {v : ListeningService ι} (hv : v.mDeviceStateReceiver = none)
include hv

/-- The byte-count listeners that a run adds are the service and its receivers. -/
theorem mem_of_registered {calls : List (ServiceCall ι)} {l : ι}
    (h : Registered .byteCount l (v.issued calls)) : l = v.this ∨ l ∈ receivers calls := by
  induction calls using List.reverseRecOn with
  | nil => exact absurd h not_since_nil
  | append_singleton calls c ih =>
      have hthis := (v.after_spec hv calls).1
      rw [receivers, List.filterMap_append]
      rw [issued_concat] at h
      rcases since_append.1 h with h | ⟨-, h⟩
      · obtain ⟨op, hop, rfl⟩ := h.exists_mem
        cases c with
        | onStartCommand b => simp [call, onStartCommand, hthis] at hop; exact Or.inl hop
        | registerDeviceStateReceiver r =>
            simp [call, registerDeviceStateReceiver] at hop
            simp [hop]
        | setStarting b => cases hop
        | event e => simp [call] at hop
        | unregisterDeviceStateReceiver => simp [call, unregisterDeviceStateReceiver] at hop
        | endVpnService => simp [call, endVpnService, unregisterDeviceStateReceiver] at hop
      · exact (ih h).imp_right (List.mem_append_left _)

/-- The service is registered for the byte count while it is started. -/
theorem registered_this_iff {calls : List (ServiceCall ι)} (hthis : v.this ∉ receivers calls) :
    Registered .byteCount v.this (v.issued calls) ↔ Started calls := by
  induction calls using List.reverseRecOn with
  | nil => exact iff_of_false not_since_nil not_since_nil
  | append_singleton calls c ih =>
      rw [receivers, List.filterMap_append, List.mem_append, not_or] at hthis
      obtain ⟨hsame, hmem⟩ := v.after_spec hv calls
      have hreceiver : ∀ r ∈ (v.after calls).mDeviceStateReceiver, r ≠ (v.after calls).this := by
        rintro r hr rfl
        exact hthis.1 (hsame ▸ hmem _ hr)
      obtain ⟨hon, hoff⟩ := call_spec hreceiver c (hsame.symm ▸ hthis.2)
      rw [hsame] at hon hoff
      rw [issued_concat, Started, since_append, since_singleton, List.forall_mem_singleton]
      exact since_append.trans (or_congr hon (and_congr hoff (ih hthis.1)))

end

section

open StatusListeners

variable [DecidableEq ι] {v : ListeningService ι}

/-- Calls that add no listener keep the lists exact. -/
theorem exact_append {ops rest : List (Op ι)} (h : Exact ops)
    (hrest : ∀ op ∈ rest, ∀ k l, op ≠ .add k l) : Exact (ops ++ rest) := by
  induction rest using List.reverseRecOn with
  | nil => rwa [List.append_nil]
  | append_singleton rest op ih =>
      rw [List.forall_mem_append, List.forall_mem_singleton] at hrest
      rw [← List.append_assoc]
      exact (exact_concat op (ih hrest.1)).2 fun k l hop => absurd hop (hrest.2 k l)

/-- One call of the service keeps the lists exact unless it starts a service that is registered, or
registers a receiver again. -/
theorem exact_call_iff {ops : List (Op ι)} (h : Exact ops) (c : ServiceCall ι) :
    Exact (ops ++ (v.call c).2) ↔
      (Starts c → ¬ Registered .byteCount v.this ops) ∧
        ∀ r ∈ receivers [c], ¬ Registered .byteCount r ops := by
  cases c with
  | onStartCommand b =>
      -- the state listener is added first, and only when it is new
      have hstate : Exact (ops ++ [.add .state v.this]) :=
        (h.concat_add_iff .state v.this).2 fun hne => absurd rfl hne
      have hsplit : ops ++ (v.call (.onStartCommand b)).2 =
          (ops ++ [.add .state v.this]) ++ [.add .byteCount v.this] := by
        simp [call, onStartCommand]
      rw [hsplit, hstate.concat_add_iff, registered_concat]
      simp [Starts, receivers]
  | registerDeviceStateReceiver r =>
      rw [call, registerDeviceStateReceiver, h.concat_add_iff]
      simp [Starts, receivers]
  -- the other calls add nothing
  | setStarting b =>
      refine iff_of_true (exact_append h ?_) (by simp [Starts, receivers])
      simp [call]
  | event e =>
      refine iff_of_true (exact_append h ?_) (by simp [Starts, receivers])
      simp [call]
  | unregisterDeviceStateReceiver =>
      refine iff_of_true (exact_append h ?_) (by simp [Starts, receivers])
      simp [call, unregisterDeviceStateReceiver]
  | endVpnService =>
      refine iff_of_true (exact_append h ?_) (by simp [Starts, receivers])
      intro op hop
      simp only [call, endVpnService, unregisterDeviceStateReceiver, List.cons_append,
        List.mem_cons, List.mem_append, List.mem_map] at hop
      rintro k l rfl
      rcases hop with hop | ⟨r, -, hop⟩ | hop
      · cases hop
      · cases hop
      · split at hop <;> simp at hop

/-- Where the service makes a new receiver every time, every event is heard once throughout a run
exactly when the service is never started again before it has ended. -/
theorem service_heard_once_iff (hv : v.mDeviceStateReceiver = none)
    (calls : List (ServiceCall ι)) (hnew : (v.this :: receivers calls).Nodup) :
    (∀ p, p <+: calls → HeardOnce (v.issued p)) ↔
      ∀ p c, p ++ [c] <+: calls → Starts c → ¬ Started p := by
  let J : List (ServiceCall ι) → Prop := fun p => Exact (v.issued p)
  let C : List (ServiceCall ι) → ServiceCall ι → Prop := fun p c =>
    (Starts c → ¬ Registered .byteCount v.this (v.issued p)) ∧
      ∀ r ∈ receivers [c], ¬ Registered .byteCount r (v.issued p)
  have hstep : ∀ p c, J p → (J (p ++ [c]) ↔ C p c) := by
    intro p c hp
    have hcall := exact_call_iff (v := v.after p) hp c
    rw [(v.after_spec hv p).1, ← issued_concat] at hcall
    exact hcall
  have hruns : (∀ p, p <+: calls → HeardOnce (v.issued p)) ↔ ∀ p, p <+: calls → J p :=
    forall₂_congr fun p _ => heardOnce_iff (v.issued p)
  rw [hruns, forall_prefixes_iff (J := J) exact_nil hstep calls]
  refine forall₃_congr fun p c hp => ?_
  -- the receivers of the run are new, so only a second start can end the invariant
  have hprefix : receivers p ++ receivers [c] <+: receivers calls := by
    rw [receivers, receivers, ← List.filterMap_append]
    exact hp.filterMap _
  have hparts := ((List.prefix_cons_inj v.this).2 hprefix).sublist.nodup hnew
  rw [List.nodup_cons, List.mem_append, not_or, List.nodup_append] at hparts
  obtain ⟨⟨hthis, hthis'⟩, -, -, hdisjoint⟩ := hparts
  have hreg := registered_this_iff hv hthis
  constructor
  · intro hC hc hstarted
    exact hC.1 hc (hreg.2 hstarted)
  · intro hstart
    refine ⟨fun hc h => hstart hc (hreg.1 h), fun r hr h => ?_⟩
    rcases mem_of_registered hv h with rfl | hmem
    · exact hthis' hr
    · exact hdisjoint r hmem r hr rfl

end

end ListeningService

/-- A service that is started twice hears the byte count twice. -/
theorem started_twice_hears_twice :
    ¬ ∀ calls : List (ServiceCall Nat),
      StatusListeners.HeardOnce (ListeningService.issued { this := 0 } calls) := by
  intro h
  have htwice := (h [.onStartCommand false, .onStartCommand false]).registered
    (.updateByteCount 5 7) 0
    ⟨[.add .state 0, .add .byteCount 0, .add .state 0], _, [], rfl, rfl, by simp⟩
  revert htwice
  decide

end PortVpn.Management
