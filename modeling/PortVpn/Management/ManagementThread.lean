import PortVpn.Management.DeviceStateReceiver

/-!
# The management thread

The part of `OpenVpnManagementThread` that decides when the OpenVPN process is held and released:
the handling of `>HOLD`, the delayed release, and the entry points `pause`, `resume`,
`networkChange` and `reconnect`. A method gives the next thread and what it writes; a callback
argument is the answer of `PausedStateCallback.shouldBeRunning` at the time of the call. The short
sleep of `releaseHoldCmd` only delays the method, so the clock argument is the reading it stores.
-/

set_option autoImplicit false

namespace PortVpn.Management

open PortVpn.Lib

/-- The commands this part of the thread writes to the management socket. -/
inductive Command where
  | holdRelease
  | bytecount
  | stateOn
  | signalSigusr1
  | networkChange (sameNetwork : Bool)
  deriving DecidableEq, Repr

/-- The text of a command. -/
def Command.text : Command → String
  | .holdRelease => "hold release\n"
  | .bytecount => "bytecount 2\n"
  | .stateOn => "state on\n"
  | .signalSigusr1 => "signal SIGUSR1\n"
  | .networkChange true => "network-change samenetwork\n"
  | .networkChange false => "network-change\n"

/-- What a method of the thread does to the outside: a command written to the socket, or a state
reported to `VpnStatus`. -/
inductive Effect where
  | write (cmd : Command)
  | connectRetry (waittime : Int)
  | statePause (reason : PauseReason)
  deriving DecidableEq, Repr

/-- The thread's fields. `mSocket` and `mPauseCallback` say whether the reference is set. -/
structure ManagementThread where
  mSocket : Bool := false
  mWaitingForRelease : Bool := false
  mLastHoldRelease : Int := 0
  lastPauseReason : PauseReason := .noNetwork
  mPauseCallback : Bool := false
  mResumeHandler : Handler := {}
  deriving DecidableEq, Repr

namespace ManagementThread

/-- `managmentCommand`: the command is written when the socket is connected. -/
def managmentCommand (t : ManagementThread) (cmd : Command) : List Effect :=
  if t.mSocket then [.write cmd] else []

def shouldBeRunning (t : ManagementThread) (callback : Bool) : Bool :=
  t.mPauseCallback && callback

/-- `handleHold`, with the wait time that the message carries. -/
def handleHold (t : ManagementThread) (callback : Bool) (waittime now : Int) :
    ManagementThread × List Effect :=
  if t.shouldBeRunning callback then
    ({ t with mResumeHandler := t.mResumeHandler.postDelayed now (wrap32 (waittime * 1000)) },
      if waittime > 1 then [.connectRetry waittime] else [])
  else
    ({ t with mWaitingForRelease := true }, [.statePause t.lastPauseReason])

def releaseHoldCmd (t : ManagementThread) (now : Int) : ManagementThread × List Effect :=
  let t := { t with
    mResumeHandler := t.mResumeHandler.removeCallbacks
    mWaitingForRelease := false
    mLastHoldRelease := now }
  (t, t.managmentCommand .holdRelease ++ t.managmentCommand .bytecount ++
    t.managmentCommand .stateOn)

def releaseHold (t : ManagementThread) (now : Int) : ManagementThread × List Effect :=
  if t.mWaitingForRelease then t.releaseHoldCmd now else (t, [])

/-- `mResumeHoldRunnable.run`, for the post that is due at `due`. -/
def resumeHold (t : ManagementThread) (callback : Bool) (due now : Int) :
    ManagementThread × List Effect :=
  let t := { t with mResumeHandler := t.mResumeHandler.fire due }
  if t.shouldBeRunning callback then t.releaseHoldCmd now else (t, [])

def networkChange (t : ManagementThread) (samenetwork : Bool) (now : Int) :
    ManagementThread × List Effect :=
  if t.mWaitingForRelease then t.releaseHold now
  else (t, t.managmentCommand (.networkChange samenetwork))

def setPauseCallback (t : ManagementThread) : ManagementThread := { t with mPauseCallback := true }

def signalusr1 (t : ManagementThread) : ManagementThread × List Effect :=
  let t := { t with mResumeHandler := t.mResumeHandler.removeCallbacks }
  if !t.mWaitingForRelease then (t, t.managmentCommand .signalSigusr1)
  else (t, [.statePause t.lastPauseReason])

def pause (t : ManagementThread) (reason : PauseReason) : ManagementThread × List Effect :=
  { t with lastPauseReason := reason }.signalusr1

def resume (t : ManagementThread) (now : Int) : ManagementThread × List Effect :=
  let r := t.releaseHold now
  ({ r.1 with lastPauseReason := .noNetwork }, r.2)

/-- A call of the device state receiver. -/
def call (t : ManagementThread) (now : Int) : ManagementCall → ManagementThread × List Effect
  | .pause reason => t.pause reason
  | .resume => t.resume now
  | .networkChange samenetwork => t.networkChange samenetwork now

/-- Some later event can still release the process: the thread waits to release it, or a delayed
release is scheduled. -/
def awaitsRelease (t : ManagementThread) : Bool :=
  t.mWaitingForRelease || t.mResumeHandler.scheduled

theorem mem_managmentCommand {t : ManagementThread} {cmd cmd' : Command} :
    .write cmd' ∈ t.managmentCommand cmd ↔ t.mSocket = true ∧ cmd' = cmd := by
  rw [managmentCommand]
  cases t.mSocket <;> simp

theorem releaseHoldCmd_writes (t : ManagementThread) (now : Int) :
    .write .holdRelease ∈ (t.releaseHoldCmd now).2 ↔ t.mSocket = true := by
  simp [releaseHoldCmd, mem_managmentCommand]

@[simp] theorem releaseHoldCmd_mSocket (t : ManagementThread) (now : Int) :
    (t.releaseHoldCmd now).1.mSocket = t.mSocket := rfl

@[simp] theorem releaseHoldCmd_mPauseCallback (t : ManagementThread) (now : Int) :
    (t.releaseHoldCmd now).1.mPauseCallback = t.mPauseCallback := rfl

/-- No call of the receiver connects or closes the socket. -/
@[simp] theorem call_mSocket (t : ManagementThread) (now : Int) (c : ManagementCall) :
    (t.call now c).1.mSocket = t.mSocket := by
  cases c with
  | pause reason => simp only [call, pause, signalusr1]; split <;> rfl
  | resume => simp only [call, resume, releaseHold]; split <;> rfl
  | networkChange same => simp only [call, networkChange, releaseHold]; split <;> rfl

/-- No call of the receiver replaces the pause callback. -/
@[simp] theorem call_mPauseCallback (t : ManagementThread) (now : Int) (c : ManagementCall) :
    (t.call now c).1.mPauseCallback = t.mPauseCallback := by
  cases c with
  | pause reason => simp only [call, pause, signalusr1]; split <;> rfl
  | resume => simp only [call, resume, releaseHold]; split <;> rfl
  | networkChange same => simp only [call, networkChange, releaseHold]; split <;> rfl

/-- A call of the receiver writes only to a connected socket. -/
theorem call_writes {t : ManagementThread} {now : Int} {c : ManagementCall} {cmd : Command}
    (h : .write cmd ∈ (t.call now c).2) : t.mSocket = true := by
  cases c with
  | pause reason =>
      simp only [call, pause, signalusr1] at h
      split at h
      · exact (mem_managmentCommand.1 h).1
      · simp at h
  | resume =>
      simp only [call, resume, releaseHold] at h
      split at h
      · simp only [releaseHoldCmd, List.mem_append, mem_managmentCommand] at h
        tauto
      · simp at h
  | networkChange same =>
      simp only [call, networkChange, releaseHold] at h
      split at h
      · simp only [releaseHoldCmd, List.mem_append, mem_managmentCommand] at h
        tauto
      · exact (mem_managmentCommand.1 h).1

/-- A call of the receiver writes `hold release` only for a process that waits for it. -/
theorem call_writes_release {t : ManagementThread} {now : Int} {c : ManagementCall}
    (h : .write .holdRelease ∈ (t.call now c).2) : t.mWaitingForRelease = true := by
  cases c with
  | pause reason =>
      simp only [call, pause, signalusr1] at h
      split at h <;> simp [mem_managmentCommand] at h
  | resume =>
      simp only [call, resume, releaseHold] at h
      split at h
      · assumption
      · simp at h
  | networkChange same =>
      simp only [call, networkChange, releaseHold] at h
      split at h
      · assumption
      · simp [mem_managmentCommand] at h

/-- `pause` never writes `hold release`. -/
theorem pause_not_release (t : ManagementThread) (now : Int) (reason : PauseReason) :
    .write .holdRelease ∉ (t.call now (.pause reason)).2 := by
  simp only [call, pause, signalusr1]
  split <;> simp [mem_managmentCommand]

/-- A report of a network change releases a waiting process. -/
theorem networkChange_writes_release {t : ManagementThread} (now : Int) (same : Bool)
    (hwait : t.mWaitingForRelease = true) (hsock : t.mSocket = true) :
    .write .holdRelease ∈ (t.call now (.networkChange same)).2 := by
  simp only [call, networkChange, releaseHold, hwait, if_true]
  exact (releaseHoldCmd_writes t now).2 hsock

/-- A call of the receiver drops the last means of release only by using it or by restarting the
process. -/
theorem call_awaitsRelease {t : ManagementThread} (now : Int) (c : ManagementCall)
    (hsock : t.mSocket = true) (h : t.awaitsRelease = true) :
    (t.call now c).1.awaitsRelease = true ∨ .write .holdRelease ∈ (t.call now c).2 ∨
      .write .signalSigusr1 ∈ (t.call now c).2 := by
  cases c with
  | pause reason =>
      cases hw : t.mWaitingForRelease with
      | true => exact Or.inl (by simp [call, pause, signalusr1, awaitsRelease, hw])
      | false =>
          refine Or.inr (Or.inr ?_)
          simp [call, pause, signalusr1, hw, mem_managmentCommand, hsock]
  | resume =>
      cases hw : t.mWaitingForRelease with
      | true =>
          refine Or.inr (Or.inl ?_)
          simpa [call, resume, releaseHold, hw] using (releaseHoldCmd_writes t now).2 hsock
      | false =>
          refine Or.inl ?_
          simpa [call, resume, releaseHold, hw, awaitsRelease] using h
  | networkChange same =>
      cases hw : t.mWaitingForRelease with
      | true => exact Or.inr (Or.inl (networkChange_writes_release now same hw hsock))
      | false =>
          refine Or.inl ?_
          simpa [call, networkChange, hw, awaitsRelease] using h

/-- A delayed release that finds the VPN wanted releases the process. -/
theorem resumeHold_of_running {t : ManagementThread} {callback : Bool} (due now : Int)
    (h : t.shouldBeRunning callback = true) : t.resumeHold callback due now = t.releaseHoldCmd now :=
  if_pos h

/-- A delayed release that finds the VPN unwanted is used up without effect. -/
theorem resumeHold_of_not_running {t : ManagementThread} {callback : Bool} (due now : Int)
    (h : t.shouldBeRunning callback = false) :
    t.resumeHold callback due now =
      ({ t with mResumeHandler := t.mResumeHandler.fire due }, []) :=
  if_neg (ne_true_of_eq_false h)

/-- Handling `>HOLD` leaves a means of release and writes nothing. -/
theorem handleHold_awaitsRelease (t : ManagementThread) (callback : Bool) (waittime now : Int) :
    (t.handleHold callback waittime now).1.awaitsRelease = true := by
  simp only [handleHold]
  split <;> simp [awaitsRelease]

theorem handleHold_writes (t : ManagementThread) (callback : Bool) (waittime now : Int)
    (cmd : Command) : .write cmd ∉ (t.handleHold callback waittime now).2 := by
  simp only [handleHold]
  split
  · split <;> simp
  · simp

@[simp] theorem handleHold_mSocket (t : ManagementThread) (callback : Bool) (waittime now : Int) :
    (t.handleHold callback waittime now).1.mSocket = t.mSocket := by
  simp only [handleHold]
  split <;> rfl

@[simp] theorem handleHold_mPauseCallback (t : ManagementThread) (callback : Bool)
    (waittime now : Int) :
    (t.handleHold callback waittime now).1.mPauseCallback = t.mPauseCallback := by
  simp only [handleHold]
  split <;> rfl

end ManagementThread

end PortVpn.Management
