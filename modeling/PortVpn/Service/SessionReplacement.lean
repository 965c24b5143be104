import PortVpn.Lib.Machine

/-!
# Replacing a session of the service

A start command for session `k + 1` reaches `OpenVPNService` while the process of session `k` may
exit at any time. The machine interleaves the steps of `onStartCommand` and `startOpenVPN` for
session `k + 1` with the steps of `processDied` for session `k`. A reference of the service is
modelled by the number of the session it belongs to.

`endVpnService` does not ask which session died. `exit_spares_successor_iff` names, for each of its
steps, the progress of the start sequence at which that step destroys something of session `k + 1`;
`exit_spares_successor_counterexample` is a run in which it does.
-/

set_option autoImplicit false

namespace PortVpn.Service

open PortVpn.Lib

/-- The references of `OpenVPNService`, each by the session it belongs to, the stored
`LAST_CONNECTED_PROFILE` and the two flags that `endVpnService` reads. -/
structure ServiceState where
  mProcessThread : Option Nat := none
  mOpenVPNThread : Option Nat := none
  mManagement : Option Nat := none
  mDeviceStateReceiver : Option Nat := none
  lastConnectedProfile : Option Nat := none
  mStarting : Bool := false
  mNotificationAlwaysVisible : Bool := false
  deriving DecidableEq, Repr

/-- What the service tells Android and `VpnStatus`. -/
inductive ServiceOut where
  | stateNoProcess
  | stopForeground (removeNotification : Bool)
  | stopSelf
  deriving DecidableEq, Repr

namespace ServiceState

def clearProcessThread (s : ServiceState) : ServiceState := { s with mProcessThread := none }

def unregisterDeviceStateReceiver (s : ServiceState) : ServiceState :=
  { s with mDeviceStateReceiver := none }

/-- `ProfileManager.setConntectedVpnProfileDisconnected`. -/
def setConntectedVpnProfileDisconnected (s : ServiceState) : ServiceState :=
  { s with lastConnectedProfile := none }

def clearOpenVPNThread (s : ServiceState) : ServiceState := { s with mOpenVPNThread := none }

/-- The last step of `endVpnService`. -/
def stopService (s : ServiceState) : List ServiceOut :=
  if !s.mStarting then
    .stopForeground (!s.mNotificationAlwaysVisible) ::
      if !s.mNotificationAlwaysVisible then [.stopSelf] else []
  else []

/-- `endVpnService`, also the whole of `processDied`. -/
def endVpnService (s : ServiceState) : ServiceState × List ServiceOut :=
  let s := s.clearProcessThread
  let s := s.unregisterDeviceStateReceiver
  let s := s.setConntectedVpnProfileDisconnected
  let s := s.clearOpenVPNThread
  (s, s.stopService)

/-- What is left after `endVpnService`: the management interface and the flags. -/
theorem endVpnService_state (s : ServiceState) :
    s.endVpnService.1 = { s with
      mProcessThread := none
      mOpenVPNThread := none
      mDeviceStateReceiver := none
      lastConnectedProfile := none } := rfl

/-- The service asks to be stopped only when it is not starting and has no permanent
notification. -/
theorem stopSelf_mem_stopService {s : ServiceState} :
    .stopSelf ∈ s.stopService ↔ s.mStarting = false ∧ s.mNotificationAlwaysVisible = false := by
  cases hs : s.mStarting <;> cases hv : s.mNotificationAlwaysVisible <;> simp [stopService, hs, hv]

/-- Nothing of the service belongs to a session after `k`. -/
def UpTo (k : Nat) (s : ServiceState) : Prop :=
  ∀ j, s.mProcessThread = some j ∨ s.mOpenVPNThread = some j ∨ s.mManagement = some j ∨
    s.mDeviceStateReceiver = some j ∨ s.lastConnectedProfile = some j → j ≤ k

end ServiceState

/-- Progress of `onStartCommand` for the new session: not called; the start thread is created; the
profile is stored; the profile was taken back by the start's own failure. -/
inductive MainPc where
  | waiting
  | commanded
  | stored
  | takenBack
  deriving DecidableEq, Repr

/-- Progress of `startOpenVPN` for the new session: the step it takes next. -/
inductive StartPc where
  | notStarted
  | writeConfig
  | setStarting
  | setReplaceConnection
  | stopVPN
  | interrupt
  | unlock
  | clearStarting
  | openManagement
  | createThread
  | startProcess
  | postReceiver
  | finished
  | failed
  deriving DecidableEq, Repr

/-- Progress of the exit of the old session's process: the step of `OpenVPNThread.run` and
`endVpnService` it takes next. -/
inductive ExitPc where
  | running
  | clearProcess
  | removeReceiver
  | clearProfile
  | clearThread
  | stopService
  | gone
  deriving DecidableEq, Repr

/-- The service, the two sessions' progress, whether the posted registration of the new receiver
has run, and `mNoProcessExitStatus` of the old session's thread. -/
structure Replacement where
  service : ServiceState
  main : MainPc := .waiting
  start : StartPc := .notStarted
  exit : ExitPc := .running
  registered : Bool := false
  mNoProcessExitStatus : Bool := false
  deriving DecidableEq, Repr

/-- The steps: the main thread runs `onStartCommand` and, later, the posted registration; the start
thread takes its next step, which for two of them can fail; the old process thread takes its next
step. -/
inductive ReplaceEvent where
  | startCommand
  | storeProfile
  | start (ok : Bool)
  | registerReceiver
  | exit
  deriving DecidableEq, Repr

namespace Replacement

/-- The start thread holds `mProcessLock` while it sleeps after the interrupt. -/
def locked (r : Replacement) : Bool := r.start == .unlock

/-- The start has failed: `endVpnService` ends the service, with what is stored of the session. -/
def failStart (r : Replacement) : Replacement × List ServiceOut :=
  let e := r.service.endVpnService
  ({ r with
      service := e.1
      start := .failed
      main := if r.main = .stored then .takenBack else r.main }, e.2)

/-- The next step of `startOpenVPN` for session `k + 1`. -/
def startStep (k : Nat) (r : Replacement) (ok : Bool) : Option (Replacement × List ServiceOut) :=
  match r.start with
  | .notStarted | .finished | .failed => none
  -- the configuration file cannot be written
  | .writeConfig => if ok then some ({ r with start := .setStarting }, []) else some r.failStart
  | .setStarting => some ({ r with
      service := { r.service with mStarting := true }, start := .setReplaceConnection }, [])
  -- the flag is what the exit of the old process looks at
  | .setReplaceConnection => some ({ r with
      mNoProcessExitStatus := r.mNoProcessExitStatus ||
        (r.service.mManagement.isSome && r.service.mOpenVPNThread == some k)
      start := .stopVPN }, [])
  | .stopVPN => some ({ r with start := .interrupt }, [])
  | .interrupt => some ({ r with start := .unlock }, [])
  | .unlock => some ({ r with start := .clearStarting }, [])
  | .clearStarting => some ({ r with
      service := { r.service with mStarting := false }, start := .openManagement }, [])
  | .openManagement =>
      if ok then some ({ r with
        service := { r.service with mManagement := some (k + 1) }, start := .createThread }, [])
      else some r.failStart
  | .createThread => some ({ r with
      service := { r.service with mOpenVPNThread := some (k + 1) }, start := .startProcess }, [])
  | .startProcess => some ({ r with
      service := { r.service with mProcessThread := some (k + 1) }, start := .postReceiver }, [])
  | .postReceiver => some ({ r with start := .finished }, [])

/-- The next step of the exit of session `k`'s process. The test of `mStarting` and the calls behind it
are one step. -/
def exitStep (r : Replacement) : Option (Replacement × List ServiceOut) :=
  match r.exit with
  -- a process that is replaced on purpose is not reported
  | .running => some ({ r with exit := .clearProcess },
      if !r.mNoProcessExitStatus then [.stateNoProcess] else [])
  | .clearProcess =>
      -- the lock is held while `startOpenVPN` waits after the interrupt
      if r.locked then none
      else some ({ r with service := r.service.clearProcessThread, exit := .removeReceiver }, [])
  | .removeReceiver => some ({ r with
      service := r.service.unregisterDeviceStateReceiver, exit := .clearProfile }, [])
  | .clearProfile => some ({ r with
      service := r.service.setConntectedVpnProfileDisconnected, exit := .clearThread }, [])
  | .clearThread => some ({ r with
      service := r.service.clearOpenVPNThread, exit := .stopService }, [])
  | .stopService => some ({ r with exit := .gone }, r.service.stopService)
  | .gone => none

/-- One step of the replacement of session `k` by session `k + 1`. -/
def step (k : Nat) : Machine Replacement ReplaceEvent ServiceOut := fun r e =>
  match e with
  | .startCommand =>
      if r.main = .waiting then some ({ r with main := .commanded, start := .writeConfig }, [])
      else none
  | .storeProfile =>
      if r.main = .commanded then some ({ r with
        service := { r.service with lastConnectedProfile := some (k + 1) }, main := .stored }, [])
      else none
  | .start ok => r.startStep k ok
  | .registerReceiver =>
      if r.start = .finished ∧ r.registered = false ∧ r.main ≠ .commanded then some ({ r with
        service := { r.service.unregisterDeviceStateReceiver with
          mDeviceStateReceiver := r.service.mManagement }
        registered := true }, [])
      else none
  | .exit => r.exitStep

/-- The session that takes over is starting or running. -/
def Active (r : Replacement) : Prop := r.start ≠ .notStarted ∧ r.start ≠ .failed

/-- The next step of the exit comes too late: the start sequence has already made its own what that
step takes away, or the step stops a service that the new session needs. -/
def TooLate (r : Replacement) : ReplaceEvent → Prop
  | .exit =>
      match r.exit with
      | .clearProcess => r.start = .postReceiver ∨ r.start = .finished
      | .removeReceiver => r.registered = true
      | .clearProfile => r.main = .stored
      | .clearThread => r.start = .startProcess ∨ r.start = .postReceiver ∨ r.start = .finished
      | .stopService => r.service.mStarting = false ∧ r.service.mNotificationAlwaysVisible = false ∧
          r.Active
      | _ => False
  | _ => False

/-- A step of the exit of session `k` leaves alone what belongs to session `k + 1`. -/
structure Spares (k : Nat) (x : Step Replacement ReplaceEvent ServiceOut) : Prop where
  process : x.pre.service.mProcessThread = some (k + 1) →
    x.post.service.mProcessThread = some (k + 1)
  thread : x.pre.service.mOpenVPNThread = some (k + 1) →
    x.post.service.mOpenVPNThread = some (k + 1)
  receiver : x.pre.service.mDeviceStateReceiver = some (k + 1) →
    x.post.service.mDeviceStateReceiver = some (k + 1)
  profile : x.pre.service.lastConnectedProfile = some (k + 1) →
    x.post.service.lastConnectedProfile = some (k + 1)
  service : .stopSelf ∈ x.out → ¬ x.pre.Active

/-- What belongs to session `k + 1` is told by the progress of its start sequence. -/
structure Owned (k : Nat) (r : Replacement) : Prop where
  process : r.service.mProcessThread = some (k + 1) ↔ r.start = .postReceiver ∨ r.start = .finished
  thread : r.service.mOpenVPNThread = some (k + 1) ↔
    r.start = .startProcess ∨ r.start = .postReceiver ∨ r.start = .finished
  receiver : r.service.mDeviceStateReceiver = some (k + 1) ↔ r.registered = true
  profile : r.service.lastConnectedProfile = some (k + 1) ↔ r.main = .stored
  management : r.start = .createThread ∨ r.start = .startProcess ∨ r.start = .postReceiver ∨
    r.start = .finished → r.service.mManagement = some (k + 1)
  posted : r.registered = true → r.start = .finished
  commanded : r.main = .waiting → r.start = .notStarted

/-- A service that serves session `k`, whose process may or may not still run. -/
def init (k : Nat) (s : { s : ServiceState // s.UpTo k }) : Replacement := { service := s.1 }

theorem init_owned (k : Nat) (s : { s : ServiceState // s.UpTo k }) : Owned k (init k s) := by
  have hnew : ∀ ref : Option Nat, (∀ j, ref = some j → j ≤ k) → ref ≠ some (k + 1) :=
    fun ref h e => absurd (h _ e) (by omega)
  have hs := s.2
  constructor
  · exact iff_of_false (hnew _ fun j h => hs j (.inl h)) (by simp [init])
  · exact iff_of_false (hnew _ fun j h => hs j (.inr (.inl h))) (by simp [init])
  · exact iff_of_false (hnew _ fun j h => hs j (.inr (.inr (.inr (.inl h))))) (by simp [init])
  · exact iff_of_false (hnew _ fun j h => hs j (.inr (.inr (.inr (.inr h))))) (by simp [init])
  · simp [init]
  · simp [init]
  · simp [init]

/-! ## The exit is `processDied` -/

/-- The exit taken without interruption from the entry of `processDied` on. -/
theorem exit_runs_endVpnService (k : Nat) (r : Replacement) (hexit : r.exit = .clearProcess)
    (hlock : r.start ≠ .unlock) :
    Machine.Visits (step k) r (List.replicate 5 .exit)
        { r with service := r.service.endVpnService.1, exit := .gone } ∧
      ((Machine.history (step k) r (List.replicate 5 .exit)).flatMap fun x => x.out) =
        r.service.endVpnService.2 := by
  constructor
  · refine Or.inr ?_
    simp [Machine.history, List.replicate, step, exitStep, hexit, locked, hlock,
      ServiceState.endVpnService]
  · simp [Machine.history, List.replicate, step, exitStep, hexit, locked, hlock,
      ServiceState.endVpnService]

/-! ## What the steps keep -/

variable {k : Nat} {r r' : Replacement} {ok : Bool} {out : List ServiceOut}

/-- A start that fails before it has created its threads takes back the stored profile. -/
theorem failStart_owned (h : Owned k r) (hstart : r.start = .writeConfig ∨ r.start = .openManagement) :
    Owned k r.failStart.1 := by
  have hreg : r.registered = false := by
    by_contra hr
    have hfin := h.posted (by simpa using hr)
    rcases hstart with hs | hs <;> simp [hs] at hfin
  have hmain : r.main ≠ .waiting := fun hm => by
    have hnot := h.commanded hm
    rcases hstart with hs | hs <;> simp [hs] at hnot
  constructor
  · simp [failStart, ServiceState.endVpnService_state]
  · simp [failStart, ServiceState.endVpnService_state]
  · simp [failStart, ServiceState.endVpnService_state, hreg]
  · by_cases hs : r.main = .stored <;> simp [failStart, ServiceState.endVpnService_state, hs]
  · simp [failStart]
  · simp [failStart, hreg]
  · by_cases hs : r.main = .stored <;> simp [failStart, hs, hmain]

/-- Each step of the start sequence claims its part of the service for the new session. -/
theorem startStep_owned (h : r.startStep k ok = some (r', out)) (hown : Owned k r) :
    Owned k r' := by
  have hown' := hown
  obtain ⟨hprocess, hthread, hreceiver, hprofile, hmanagement, hposted, hcommanded⟩ := hown'
  cases hs : r.start with
  | notStarted | finished | failed => simp [startStep, hs] at h
  | writeConfig | openManagement =>
      cases ok with
      | false =>
          simp only [startStep, hs, Bool.false_eq_true, if_false, Option.some.injEq] at h
          rw [← show r.failStart.1 = r' by rw [h]]
          exact failStart_owned hown (by simp [hs])
      | true =>
          simp only [startStep, hs, if_true, Option.some.injEq, Prod.mk.injEq] at h
          obtain ⟨rfl, -⟩ := h
          constructor <;> simp_all
  | setStarting | setReplaceConnection | stopVPN | interrupt | unlock | clearStarting
    | createThread | startProcess | postReceiver =>
      simp only [startStep, hs, Option.some.injEq, Prod.mk.injEq] at h
      obtain ⟨rfl, -⟩ := h
      constructor <;> simp_all

/-- The posted registration takes the management thread that is then current: the new one. -/
theorem register_owned (hown : Owned k r) (hstart : r.start = .finished) :
    Owned k { r with
      service := { r.service.unregisterDeviceStateReceiver with
        mDeviceStateReceiver := r.service.mManagement }
      registered := true } := by
  obtain ⟨hprocess, hthread, hreceiver, hprofile, hmanagement, hposted, hcommanded⟩ := hown
  constructor <;> simp_all [ServiceState.unregisterDeviceStateReceiver]

/-- A step of the exit that does not come too late takes nothing from the new session. -/
theorem exitStep_owned (h : r.exitStep = some (r', out)) (hown : Owned k r)
    (htime : ¬ r.TooLate .exit) : Owned k r' := by
  obtain ⟨hprocess, hthread, hreceiver, hprofile, hmanagement, hposted, hcommanded⟩ := hown
  cases hs : r.exit with
  | gone => simp [exitStep, hs] at h
  | clearProcess =>
      simp only [TooLate, hs] at htime
      simp only [exitStep, hs] at h
      split at h
      · simp at h
      · simp only [Option.some.injEq, Prod.mk.injEq] at h
        obtain ⟨rfl, -⟩ := h
        constructor <;> simp_all [ServiceState.clearProcessThread]
  | running | stopService =>
      simp only [exitStep, hs, Option.some.injEq, Prod.mk.injEq] at h
      obtain ⟨rfl, -⟩ := h
      constructor <;> simp_all
  | removeReceiver | clearProfile | clearThread =>
      simp only [TooLate, hs] at htime
      simp only [exitStep, hs, Option.some.injEq, Prod.mk.injEq] at h
      obtain ⟨rfl, -⟩ := h
      constructor <;> simp_all [ServiceState.unregisterDeviceStateReceiver,
        ServiceState.setConntectedVpnProfileDisconnected, ServiceState.clearOpenVPNThread]

theorem step_owned {e : ReplaceEvent} (h : step k r e = some (r', out)) (hown : Owned k r)
    (htime : ¬ r.TooLate e) : Owned k r' := by
  cases e with
  | start ok => exact startStep_owned h hown
  | exit => exact exitStep_owned h hown htime
  | startCommand =>
      simp only [step] at h
      split at h
      next hw =>
        obtain ⟨rfl, -⟩ := Prod.ext_iff.1 (Option.some.inj h)
        have hnot := hown.commanded hw
        obtain ⟨hprocess, hthread, hreceiver, hprofile, hmanagement, hposted, -⟩ := hown
        constructor <;> simp_all
      next => simp at h
  | storeProfile =>
      simp only [step] at h
      split at h
      next hc =>
        obtain ⟨rfl, -⟩ := Prod.ext_iff.1 (Option.some.inj h)
        obtain ⟨hprocess, hthread, hreceiver, hprofile, hmanagement, hposted, -⟩ := hown
        constructor <;> simp_all
      next => simp at h
  | registerReceiver =>
      simp only [step] at h
      split at h
      next hf =>
        obtain ⟨rfl, -⟩ := Prod.ext_iff.1 (Option.some.inj h)
        exact register_owned hown hf.1
      next => simp at h

/-! ## What the exit takes away -/

/-- A step of the exit spares the new session exactly when it does not come too late. -/
theorem exitStep_spares_iff (h : r.exitStep = some (r', out)) (hown : Owned k r) :
    Spares k ⟨r, .exit, r', out⟩ ↔ ¬ r.TooLate .exit := by
  cases hs : r.exit with
  | gone => simp [exitStep, hs] at h
  | running =>
      simp only [exitStep, hs, Option.some.injEq, Prod.mk.injEq] at h
      obtain ⟨rfl, rfl⟩ := h
      refine iff_of_true ⟨id, id, id, id, ?_⟩ (by simp [TooLate, hs])
      cases r.mNoProcessExitStatus <;> simp
  -- this step and the next three clear one field each, of the new session or not
  | clearProcess =>
      simp only [exitStep, hs] at h
      split at h
      · simp at h
      · simp only [Option.some.injEq, Prod.mk.injEq] at h
        obtain ⟨rfl, rfl⟩ := h
        simp only [TooLate, hs, ← hown.process]
        constructor
        · exact fun hspare hmine => by
            simpa [ServiceState.clearProcessThread] using hspare.process hmine
        · exact fun hnot => ⟨fun hmine => absurd hmine hnot, id, id, id, by simp⟩
  | removeReceiver =>
      simp only [exitStep, hs, Option.some.injEq, Prod.mk.injEq] at h
      obtain ⟨rfl, rfl⟩ := h
      simp only [TooLate, hs, ← hown.receiver]
      constructor
      · exact fun hspare hmine => by
          simpa [ServiceState.unregisterDeviceStateReceiver] using hspare.receiver hmine
      · exact fun hnot => ⟨id, id, fun hmine => absurd hmine hnot, id, by simp⟩
  | clearProfile =>
      simp only [exitStep, hs, Option.some.injEq, Prod.mk.injEq] at h
      obtain ⟨rfl, rfl⟩ := h
      simp only [TooLate, hs, ← hown.profile]
      constructor
      · exact fun hspare hmine => by
          simpa [ServiceState.setConntectedVpnProfileDisconnected] using hspare.profile hmine
      · exact fun hnot => ⟨id, id, id, fun hmine => absurd hmine hnot, by simp⟩
  | clearThread =>
      simp only [exitStep, hs, Option.some.injEq, Prod.mk.injEq] at h
      obtain ⟨rfl, rfl⟩ := h
      simp only [TooLate, hs, ← hown.thread]
      constructor
      · exact fun hspare hmine => by
          simpa [ServiceState.clearOpenVPNThread] using hspare.thread hmine
      · exact fun hnot => ⟨id, fun hmine => absurd hmine hnot, id, id, by simp⟩
  -- the service ends unless a start is under way or the notification stays
  | stopService =>
      simp only [exitStep, hs, Option.some.injEq, Prod.mk.injEq] at h
      obtain ⟨rfl, rfl⟩ := h
      simp only [TooLate, hs, ← and_assoc, ← ServiceState.stopSelf_mem_stopService, not_and]
      exact ⟨fun hspare => hspare.service, fun hnot => ⟨id, id, id, id, hnot⟩⟩

/-- **What a replaced session's exit spares, exactly.** In a run that replaces session `k` by
session `k + 1`, no step of the exit takes anything from session `k + 1` exactly when none of them
comes too late. -/
theorem exit_spares_successor_iff (k : Nat) (s : { s : ServiceState // s.UpTo k })
    (ls : List ReplaceEvent) :
    (∀ x ∈ Machine.history (step k) (init k s) ls, x.label = .exit → Spares k x) ↔
      ∀ x ∈ Machine.history (step k) (init k s) ls, ¬ x.pre.TooLate x.label := by
  have hexact : ∀ x : Step Replacement ReplaceEvent ServiceOut, Machine.Takes (step k) x →
      Owned k x.pre → ((x.label = .exit → Spares k x) ↔ ¬ x.pre.TooLate x.label) := by
    rintro ⟨r, e, r', out⟩ hx hown
    cases e with
    | exit => exact ⟨fun h => (exitStep_spares_iff hx hown).1 (h rfl),
        fun h _ => (exitStep_spares_iff hx hown).2 h⟩
    | startCommand | storeProfile | start | registerReceiver =>
        exact iff_of_true (fun h => nomatch h) (fun h => h)
  exact Machine.forall_history_iff (I := Owned k)
    (fun x hx hown hC => ⟨step_owned hx hown hC, (hexact x hx hown).2 hC⟩)
    (fun x hx hown => (hexact x hx hown).1) (init_owned k s)

/-- The service of a running session 0. -/
def running : { s : ServiceState // s.UpTo 0 } :=
  ⟨{ mProcessThread := some 0, mOpenVPNThread := some 0, mManagement := some 0,
     mDeviceStateReceiver := some 0, lastConnectedProfile := some 0 }, by
    simp [ServiceState.UpTo]⟩

/-- **An exit that tears down its successor.** The process of session 0 ends only after session 1
has started, later than the two seconds for which the start sequence waits: the exit clears the
process thread of session 1. -/
theorem exit_spares_successor_counterexample :
    ∃ ls, ∃ x ∈ Machine.history (step 0) (init 0 running) ls, x.label = .exit ∧
      ¬ Spares 0 x := by
  refine ⟨[.startCommand, .storeProfile] ++ List.replicate 11 (.start true) ++
    [.registerReceiver, .exit, .exit], _, List.getLast_mem (by decide), by decide, ?_⟩
  exact fun hspare => absurd (hspare.process (by decide)) (by decide)

end Replacement

end PortVpn.Service
