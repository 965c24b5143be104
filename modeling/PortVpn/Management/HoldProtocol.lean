import PortVpn.Lib.Machine
import PortVpn.Management.ManagementThread

/-!
# The hold protocol

The receiver, the management thread and the OpenVPN process as one machine. The process is held
from the moment it sends `>HOLD` until it receives `hold release`, and sends `>HOLD` again after
every `signal SIGUSR1`. A `>HOLD` message and a SIGUSR1 travel: the one waits until the thread
handles it, the other until the process takes it. Every event is one atomic step, and `hold
release` reaches the process in the step that writes it.

A delayed release that finds the VPN paused gives up without marking the process as waiting, so a
held process can be left with no means of release (`noLostHold_counterexample`); it is the only way
to lose one (`noLostHold_iff`). A network that reappears within the disconnect delay is reported
without asking `shouldBeConnected`, which releases a process that the user has paused
(`userPause_counterexample`); nothing else does (`userPause_respected_iff`).
-/

set_option autoImplicit false

namespace PortVpn.Management

open PortVpn.Lib

/-- The parties, the messages in flight and the last clock reading. -/
structure System where
  receiver : DeviceStateReceiver := {}
  management : ManagementThread := {}
  held : Bool := false
  holdInFlight : List Int := []
  sigusr1InFlight : Nat := 0
  clock : Int := 0
  deriving DecidableEq, Repr

/-- The events: the process connects, sends `>HOLD` by itself or takes a SIGUSR1; the receiver is
registered; the thread handles the oldest `>HOLD`; the delayed release due at `due` fires; the
receiver reacts to a device event. -/
inductive Event where
  | accept
  | register
  | processHold (waittime : Int)
  | processSigusr1 (waittime : Int)
  | handleHold (now : Int)
  | resumeHold (due now : Int)
  | device (e : DeviceEvent) (now : Int)
  deriving DecidableEq, Repr

namespace System

/-- The effects reach the process. -/
def deliver (s : System) (out : List Effect) : System :=
  { s with
    held := s.held && !out.contains (.write .holdRelease)
    sigusr1InFlight := s.sigusr1InFlight + out.count (.write .signalSigusr1) }

/-- The thread has taken a step. -/
def managementStep (s : System) (now : Int) (r : ManagementThread × List Effect) :
    System × List Effect :=
  ({ s with management := r.1, clock := now }.deliver r.2, r.2)

/-- The receiver reacts to a device event and calls the thread. -/
def deviceStep (s : System) (now : Int) (e : DeviceEvent) : System × List Effect :=
  let r := s.receiver.receive now e
  match r.2 with
  | none => ({ s with receiver := r.1, clock := now }, [])
  | some c => { s with receiver := r.1 }.managementStep now (s.management.call now c)

/-- One event. -/
def step : Machine System Event Effect := fun s e =>
  match e with
  | .accept =>
      if s.management.mSocket then none
      else some ({ s with management := { s.management with mSocket := true } }, [])
  | .register =>
      if s.management.mPauseCallback then none
      else some ({ s with receiver := {}, management := s.management.setPauseCallback }, [])
  | .processHold waittime =>
      if s.management.mSocket && !s.held then
        some ({ s with held := true, holdInFlight := s.holdInFlight ++ [waittime] }, [])
      else none
  | .processSigusr1 waittime =>
      match s.sigusr1InFlight with
      | 0 => none
      | n + 1 => some ({ s with
          sigusr1InFlight := n, held := true, holdInFlight := s.holdInFlight ++ [waittime] }, [])
  | .handleHold now =>
      match s.holdInFlight with
      | [] => none
      | waittime :: rest =>
          if s.clock ≤ now then
            some ({ s with holdInFlight := rest }.managementStep now
              (s.management.handleHold s.receiver.shouldBeConnected waittime now))
          else none
  | .resumeHold due now =>
      if s.management.mResumeHandler.pending.contains due && due ≤ now && s.clock ≤ now then
        some (s.managementStep now
          (s.management.resumeHold s.receiver.shouldBeConnected due now))
      else none
  | .device e now =>
      if s.management.mPauseCallback && s.receiver.enabled now e && s.clock ≤ now then
        some (s.deviceStep now e)
      else none

/-- A held process with no SIGUSR1 and no `>HOLD` in flight can still be released. -/
def NoLostHold (s : System) : Prop :=
  s.held = true → s.sigusr1InFlight = 0 → s.holdInFlight = [] →
    s.management.mWaitingForRelease = true ∨ s.management.mResumeHandler.scheduled = true

/-- The delayed release due at `due` fires while the VPN should not be connected, and it is the
held process's last means of release. -/
def FiresInVain (s : System) : Event → Prop
  | .resumeHold due _ =>
      s.receiver.shouldBeConnected = false ∧ s.held = true ∧ s.sigusr1InFlight = 0 ∧
        s.holdInFlight = [] ∧ s.management.mWaitingForRelease = false ∧
        (s.management.mResumeHandler.fire due).scheduled = false
  | _ => False

/-- The network reappears while the user has paused the VPN and the process waits for its
release. -/
def ReappearsPaused (s : System) : Event → Prop
  | .device e _ =>
      s.receiver.Reappears e ∧ s.receiver.userpause ≠ .shouldBeConnected ∧
        s.management.mWaitingForRelease = true ∧ s.management.mSocket = true
  | _ => False

/-- What holds of the socket in every reachable state: the process is held, and signals and
messages travel, only over a connected socket, and only a registered receiver is in use. -/
structure Wired (s : System) : Prop where
  held : s.held = true → s.management.mSocket = true
  signals : s.sigusr1InFlight ≠ 0 → s.management.mSocket = true
  callback : s.management.mPauseCallback = false → s.receiver.shouldBeConnected = false

/-! ## Single steps -/

variable {s s' : System} {out : List Effect} {now : Int}

theorem deliver_held : (s.deliver out).held = true ↔ s.held = true ∧ .write .holdRelease ∉ out := by
  simp [deliver]

@[simp] theorem deliver_management : (s.deliver out).management = s.management := rfl

@[simp] theorem deliver_receiver : (s.deliver out).receiver = s.receiver := rfl

@[simp] theorem managementStep_management (r : ManagementThread × List Effect) :
    (s.managementStep now r).1.management = r.1 := rfl

@[simp] theorem managementStep_receiver (r : ManagementThread × List Effect) :
    (s.managementStep now r).1.receiver = s.receiver := rfl

@[simp] theorem managementStep_nil (t : ManagementThread) :
    (s.managementStep now (t, [])).1 = { s with management := t, clock := now } := by
  simp [managementStep, deliver]

theorem deliver_sigusr1 (h : .write .signalSigusr1 ∈ out) : (s.deliver out).sigusr1InFlight ≠ 0 := by
  have := List.count_pos_iff.2 h
  simp only [deliver]
  omega

theorem deliver_no_sigusr1 (h : .write .signalSigusr1 ∉ out) :
    (s.deliver out).sigusr1InFlight = s.sigusr1InFlight := by
  simp [deliver, List.count_eq_zero_of_not_mem h]

theorem deviceStep_none {e : DeviceEvent} (h : (s.receiver.receive now e).2 = none) :
    s.deviceStep now e = ({ s with receiver := (s.receiver.receive now e).1, clock := now }, []) := by
  simp [deviceStep, h]

theorem deviceStep_some {e : DeviceEvent} {c : ManagementCall}
    (h : (s.receiver.receive now e).2 = some c) :
    s.deviceStep now e = { s with receiver := (s.receiver.receive now e).1 }.managementStep now
      (s.management.call now c) := by
  simp [deviceStep, h]

/-- A step of the thread keeps the socket invariants if it keeps the socket and the callback, and
signals over a connected socket only. -/
theorem Wired.managementStep (hw : Wired s) {r : ManagementThread × List Effect}
    (hsocket : r.1.mSocket = s.management.mSocket)
    (hcallback : r.1.mPauseCallback = s.management.mPauseCallback)
    (hsignals : .write .signalSigusr1 ∈ r.2 → s.management.mSocket = true) :
    Wired (s.managementStep now r).1 := by
  constructor
  · intro h
    rw [managementStep_management, hsocket]
    exact hw.held (deliver_held.1 h).1
  · intro h
    rw [managementStep_management, hsocket]
    by_cases hsig : .write .signalSigusr1 ∈ r.2
    · exact hsignals hsig
    · rw [System.managementStep, deliver_no_sigusr1 hsig] at h
      exact hw.signals h
  · intro h
    rw [managementStep_management, hcallback] at h
    exact hw.callback h

/-- A device event keeps the socket invariants. -/
theorem Wired.deviceStep (hw : Wired s) (hcb : s.management.mPauseCallback = true)
    (e : DeviceEvent) : Wired (s.deviceStep now e).1 := by
  have hreceiver (r : DeviceStateReceiver) : Wired { s with receiver := r } :=
    ⟨hw.held, hw.signals, fun h => Bool.noConfusion (hcb.symm.trans h)⟩
  cases hc : (s.receiver.receive now e).2 with
  | none =>
      rw [deviceStep_none hc]
      have h := hreceiver (s.receiver.receive now e).1
      exact ⟨h.held, h.signals, h.callback⟩
  | some c =>
      rw [deviceStep_some hc]
      apply (hreceiver _).managementStep
      · simp
      · simp
      · exact ManagementThread.call_writes

/-- A device event loses no hold. -/
theorem NoLostHold.deviceStep (hw : Wired s) (hn : NoLostHold s) (e : DeviceEvent) :
    NoLostHold (s.deviceStep now e).1 := by
  cases hc : (s.receiver.receive now e).2 with
  | none =>
      rw [deviceStep_none hc]
      exact hn
  | some c =>
      rw [deviceStep_some hc]
      intro hheld hsig hhold
      obtain ⟨hheld, hrel⟩ := deliver_held.1 hheld
      have hnosig : .write .signalSigusr1 ∉ (s.management.call now c).2 :=
        fun h => deliver_sigusr1 h hsig
      rw [managementStep, deliver_no_sigusr1 hnosig] at hsig
      have hawait : s.management.awaitsRelease = true := by
        simpa [ManagementThread.awaitsRelease] using hn hheld hsig hhold
      rcases ManagementThread.call_awaitsRelease now c (hw.held hheld) hawait with h | h | h
      · simpa [ManagementThread.awaitsRelease] using h
      · exact absurd h hrel
      · exact absurd h hnosig

/-- The thread that handles a `>HOLD` keeps a means of release. -/
theorem handleHold_noLostHold (waittime : Int) :
    NoLostHold (s.managementStep now
      (s.management.handleHold s.receiver.shouldBeConnected waittime now)).1 := by
  intro _ _ _
  simpa [ManagementThread.awaitsRelease] using
    s.management.handleHold_awaitsRelease s.receiver.shouldBeConnected waittime now

/-- A delayed release keeps a means of release unless it fires in vain. -/
theorem resumeHold_noLostHold (hw : Wired s) (due : Int)
    (hvain : ¬ FiresInVain s (.resumeHold due now)) :
    NoLostHold (s.managementStep now
      (s.management.resumeHold s.receiver.shouldBeConnected due now)).1 := by
  cases hrun : s.management.shouldBeRunning s.receiver.shouldBeConnected with
  | true =>
      -- the release is written: the process is held no more
      rw [ManagementThread.resumeHold_of_running due now hrun]
      intro hh
      obtain ⟨hheld, hrel⟩ := deliver_held.1 hh
      exact absurd ((s.management.releaseHoldCmd_writes now).2 (hw.held hheld)) hrel
  | false =>
      rw [ManagementThread.resumeHold_of_not_running due now hrun, managementStep_nil]
      intro hheld hsig hhold
      have hconn : s.receiver.shouldBeConnected = false := by
        cases hcb : s.management.mPauseCallback with
        | true => simpa [ManagementThread.shouldBeRunning, hcb] using hrun
        | false => exact hw.callback hcb
      by_contra hcon
      simp only [not_or, Bool.not_eq_true] at hcon
      exact hvain ⟨hconn, hheld, hsig, hhold, hcon.1, hcon.2⟩

/-- A delayed release keeps the socket invariants: it writes no signal. -/
theorem Wired.resumeHold (hw : Wired s) (due : Int) :
    Wired (s.managementStep now
      (s.management.resumeHold s.receiver.shouldBeConnected due now)).1 := by
  cases hrun : s.management.shouldBeRunning s.receiver.shouldBeConnected with
  | true =>
      rw [ManagementThread.resumeHold_of_running due now hrun]
      have hquiet : .write .signalSigusr1 ∉ (s.management.releaseHoldCmd now).2 := by
        simp [ManagementThread.releaseHoldCmd, ManagementThread.mem_managmentCommand]
      apply hw.managementStep
      · simp
      · simp
      · exact fun h => absurd h hquiet
  | false =>
      rw [ManagementThread.resumeHold_of_not_running due now hrun, managementStep_nil]
      exact ⟨hw.held, hw.signals, hw.callback⟩

/-- What an event needs and what it does. -/
theorem step_cases {e : Event} (h : step s e = some (s', out)) :
    match e with
    | .accept =>
        (s', out) = ({ s with management := { s.management with mSocket := true } }, [])
    | .register =>
        (s', out) = ({ s with receiver := {}, management := s.management.setPauseCallback }, [])
    | .processHold waittime => s.management.mSocket = true ∧
        (s', out) = ({ s with held := true, holdInFlight := s.holdInFlight ++ [waittime] }, [])
    | .processSigusr1 waittime => ∃ n, s.sigusr1InFlight = n + 1 ∧
        (s', out) = ({ s with
          sigusr1InFlight := n, held := true, holdInFlight := s.holdInFlight ++ [waittime] }, [])
    | .handleHold now => ∃ waittime rest, s.holdInFlight = waittime :: rest ∧
        (s', out) = ({ s with holdInFlight := rest }.managementStep now
          (s.management.handleHold s.receiver.shouldBeConnected waittime now))
    | .resumeHold due now =>
        (s', out) = s.managementStep now
          (s.management.resumeHold s.receiver.shouldBeConnected due now)
    | .device e now => s.management.mPauseCallback = true ∧ (s', out) = s.deviceStep now e := by
  cases e with
  | accept =>
      simp only [step] at h
      split at h
      · cases h
      · exact (Option.some.inj h).symm
  | register =>
      simp only [step] at h
      split at h
      · cases h
      · exact (Option.some.inj h).symm
  | processHold waittime =>
      simp only [step] at h
      split at h
      next hs => exact ⟨(Bool.and_eq_true_iff.1 hs).1, (Option.some.inj h).symm⟩
      next => cases h
  | processSigusr1 waittime =>
      simp only [step] at h
      split at h
      next => cases h
      next n hs => exact ⟨n, hs, (Option.some.inj h).symm⟩
  | handleHold now =>
      simp only [step] at h
      split at h
      next => cases h
      next waittime rest hhold =>
        split at h
        · exact ⟨waittime, rest, hhold, (Option.some.inj h).symm⟩
        · cases h
  | resumeHold due now =>
      simp only [step] at h
      split at h
      · exact (Option.some.inj h).symm
      · cases h
  | device e now =>
      simp only [step, Bool.and_eq_true] at h
      split at h
      next hs => exact ⟨hs.1.1, (Option.some.inj h).symm⟩
      next => cases h

/-- **Step lemma.** Every event keeps the socket invariants, and every event but a delayed release
that fires in vain keeps a means of release. -/
theorem step_keeps {e : Event} (h : step s e = some (s', out)) (hw : Wired s)
    (hn : NoLostHold s) : Wired s' ∧ (¬ FiresInVain s e → NoLostHold s') := by
  have hstep := step_cases h
  cases e with
  | accept =>
      -- a new connection and a new callback change nothing about the hold
      obtain ⟨rfl, rfl⟩ := Prod.ext_iff.1 hstep
      exact ⟨⟨fun _ => rfl, fun _ => rfl, hw.callback⟩, fun _ => hn⟩
  | register =>
      obtain ⟨rfl, rfl⟩ := Prod.ext_iff.1 hstep
      exact ⟨⟨hw.held, hw.signals, fun h => absurd h (by simp [ManagementThread.setPauseCallback])⟩,
        fun _ => hn⟩
  | processHold waittime =>
      -- the process waits for the answer to a message that is in flight
      obtain ⟨hs, heq⟩ := hstep
      obtain ⟨rfl, rfl⟩ := Prod.ext_iff.1 heq
      exact ⟨⟨fun _ => hs, fun _ => hs, hw.callback⟩, fun _ _ _ hh => by simp at hh⟩
  | processSigusr1 waittime =>
      obtain ⟨n, hs, heq⟩ := hstep
      obtain ⟨rfl, rfl⟩ := Prod.ext_iff.1 heq
      have hs := hw.signals (by omega)
      exact ⟨⟨fun _ => hs, fun _ => hs, hw.callback⟩, fun _ _ _ hh => by simp at hh⟩
  | handleHold now =>
      -- the hold is answered, put off or left waiting
      obtain ⟨waittime, rest, hhold, heq⟩ := hstep
      obtain ⟨rfl, rfl⟩ := Prod.ext_iff.1 heq
      have hquiet := s.management.handleHold_writes s.receiver.shouldBeConnected waittime now
      have hw' : Wired { s with holdInFlight := rest } := ⟨hw.held, hw.signals, hw.callback⟩
      constructor
      · apply hw'.managementStep
        · simp
        · simp
        · exact fun h => absurd h (hquiet _)
      · exact fun _ => handleHold_noLostHold (s := { s with holdInFlight := rest }) waittime
  | resumeHold due now =>
      obtain ⟨rfl, -⟩ := Prod.ext_iff.1 hstep
      exact ⟨hw.resumeHold due, resumeHold_noLostHold hw due⟩
  | device e now =>
      obtain ⟨hcallback, heq⟩ := hstep
      obtain ⟨rfl, -⟩ := Prod.ext_iff.1 heq
      exact ⟨hw.deviceStep hcallback e, fun _ => hn.deviceStep hw e⟩

/-- A delayed release that fires in vain loses the hold. -/
theorem not_noLostHold_of_firesInVain {e : Event} (h : step s e = some (s', out))
    (hvain : FiresInVain s e) : ¬ NoLostHold s' := by
  cases e with
  | resumeHold due now =>
      obtain ⟨hconn, hheld, hsig, hhold, hwait, hsched⟩ := hvain
      have hrun : s.management.shouldBeRunning s.receiver.shouldBeConnected = false := by
        simp [ManagementThread.shouldBeRunning, hconn]
      obtain ⟨hs', -⟩ := Prod.ext_iff.1 (step_cases h)
      rw [ManagementThread.resumeHold_of_not_running due now hrun, managementStep_nil] at hs'
      subst hs'
      intro hn
      rcases hn hheld hsig hhold with hw | hs
      · exact absurd (hwait.symm.trans hw) (by decide)
      · exact absurd (hsched.symm.trans hs) (by decide)
  | _ => exact hvain.elim

/-- A device event that writes `hold release` does so in a resume of the receiver, or because the
network reappeared. -/
theorem deviceStep_writes_release {e : DeviceEvent}
    (hrel : .write .holdRelease ∈ (s.deviceStep now e).2) :
    (s.deviceStep now e).1.receiver.userpause = .shouldBeConnected ∨
      ReappearsPaused s (.device e now) := by
  cases hc : (s.receiver.receive now e).2 with
  | none =>
      rw [deviceStep_none hc] at hrel
      simp at hrel
  | some c =>
      rw [deviceStep_some hc] at hrel ⊢
      rw [managementStep_receiver]
      have hrel' : .write .holdRelease ∈ (s.management.call now c).2 := hrel
      have huser : (s.receiver.receive now e).1.shouldBeConnected = true →
          (s.receiver.receive now e).1.userpause = .shouldBeConnected := by
        intro hconn
        exact (DeviceStateReceiver.shouldBeConnected_iff.1 hconn).2.1
      cases c with
      | pause reason => exact absurd hrel' (ManagementThread.pause_not_release _ _ _)
      | resume => exact Or.inl (huser (DeviceStateReceiver.receive_resume hc))
      | networkChange same =>
          rcases DeviceStateReceiver.receive_networkChange hc with hconn | hre
          · exact Or.inl (huser hconn)
          · rw [(DeviceStateReceiver.receive_of_reappears hre).2.1]
            by_cases hu : s.receiver.userpause = .shouldBeConnected
            · exact Or.inl hu
            · exact Or.inr ⟨hre, hu, ManagementThread.call_writes_release hrel',
                ManagementThread.call_writes hrel'⟩

/-- What a step that writes `hold release` leaves behind: the user has not paused the VPN, or the
network reappeared while the user's pause was in force. -/
theorem step_writes_release {e : Event} (h : step s e = some (s', out))
    (hrel : .write .holdRelease ∈ out) :
    s'.receiver.userpause = .shouldBeConnected ∨ ReappearsPaused s e := by
  have hstep := step_cases h
  cases e with
  | accept =>
      -- these four write nothing
      obtain ⟨-, rfl⟩ := Prod.ext_iff.1 hstep
      exact absurd hrel List.not_mem_nil
  | register =>
      obtain ⟨-, rfl⟩ := Prod.ext_iff.1 hstep
      exact absurd hrel List.not_mem_nil
  | processHold waittime =>
      obtain ⟨-, heq⟩ := hstep
      obtain ⟨-, rfl⟩ := Prod.ext_iff.1 heq
      exact absurd hrel List.not_mem_nil
  | processSigusr1 waittime =>
      obtain ⟨n, -, heq⟩ := hstep
      obtain ⟨-, rfl⟩ := Prod.ext_iff.1 heq
      exact absurd hrel List.not_mem_nil
  | handleHold now =>
      obtain ⟨waittime, rest, -, heq⟩ := hstep
      obtain ⟨-, rfl⟩ := Prod.ext_iff.1 heq
      exact absurd hrel (ManagementThread.handleHold_writes _ _ _ _ _)
  | resumeHold due now =>
      obtain ⟨rfl, rfl⟩ := Prod.ext_iff.1 hstep
      cases hrun : s.management.shouldBeRunning s.receiver.shouldBeConnected with
      | true =>
          have hconn := (Bool.and_eq_true_iff.1 hrun).2
          exact Or.inl (DeviceStateReceiver.shouldBeConnected_iff.1 hconn).2.1
      | false =>
          rw [ManagementThread.resumeHold_of_not_running due now hrun] at hrel
          simp [managementStep] at hrel
  | device e now =>
      obtain ⟨-, heq⟩ := hstep
      obtain ⟨rfl, rfl⟩ := Prod.ext_iff.1 heq
      exact deviceStep_writes_release hrel

/-- A network that reappears during a user pause releases the waiting process, and the pause stays
in force. -/
theorem writes_release_of_reappearsPaused {e : Event} (h : step s e = some (s', out))
    (hre : ReappearsPaused s e) :
    .write .holdRelease ∈ out ∧ s'.receiver.userpause ≠ .shouldBeConnected := by
  cases e with
  | device e now =>
      obtain ⟨hre, huser, hwait, hsock⟩ := hre
      obtain ⟨hc, hkeep, -⟩ : (s.receiver.receive now e).2 = some (.networkChange true) ∧ _ :=
        DeviceStateReceiver.receive_of_reappears hre
      obtain ⟨-, heq⟩ := step_cases h
      obtain ⟨rfl, rfl⟩ := Prod.ext_iff.1 heq
      rw [deviceStep_some hc]
      exact ⟨ManagementThread.networkChange_writes_release now true hwait hsock,
        by simpa [hkeep] using huser⟩
  | _ => exact hre.elim

/-! ## Runs -/

/-- The service has created the thread and the process is not yet connected. -/
def init (clock : Int) : System := { clock := clock }

theorem init_wired (clock : Int) : Wired (init clock) :=
  ⟨fun h => absurd h Bool.false_ne_true, fun h => absurd rfl h, fun _ => rfl⟩

theorem init_noLostHold (clock : Int) : NoLostHold (init clock) :=
  fun h => absurd h Bool.false_ne_true

instance : DecidablePred NoLostHold := fun s => by
  rw [NoLostHold]
  infer_instance

/-- **No lost hold, exactly.** A run keeps a means of release for every held process exactly when
no delayed release of the run fires in vain. -/
theorem noLostHold_iff (clock : Int) (ls : List Event) :
    (∀ s, Machine.Visits step (init clock) ls s → NoLostHold s) ↔
      ∀ x ∈ Machine.history step (init clock) ls, ¬ FiresInVain x.pre x.label := by
  have key : (∀ x ∈ Machine.history step (init clock) ls, NoLostHold x.post) ↔
      ∀ x ∈ Machine.history step (init clock) ls, ¬ FiresInVain x.pre x.label :=
    Machine.forall_history_iff (I := fun s => Wired s ∧ NoLostHold s)
    (fun x hx hinv hC => by
      obtain ⟨hw, hn⟩ := step_keeps hx hinv.1 hinv.2
      exact ⟨⟨hw, hn hC⟩, hn hC⟩)
    (fun x hx _ hP hvain => not_noLostHold_of_firesInVain hx hvain hP)
    ⟨init_wired clock, init_noLostHold clock⟩
  rw [← key]
  constructor
  · exact fun h x hx => h x.post (Or.inr ⟨x, hx, rfl⟩)
  · rintro h s (rfl | ⟨x, hx, rfl⟩)
    · exact init_noLostHold clock
    · exact h x hx

/-- **A hold that is lost.** The process waits ten seconds before a retry, the network goes down
during the wait, and the delayed release finds the disconnect pending. -/
theorem noLostHold_counterexample :
    ∃ ls s, Machine.Visits step (init 0) ls s ∧ ¬ NoLostHold s := by
  let wifi : NetworkInfo := ⟨1, some "home", true⟩
  refine ⟨[.accept, .register, .device (.networkStateChange true (some wifi)) 0, .processHold 10,
    .handleHold 0, .device (.networkStateChange true none) 5000, .resumeHold 10000 10000],
    _, Or.inr ⟨_, List.getLast_mem (by decide), rfl⟩, by decide⟩

/-- **A user pause is respected, exactly.** In a run `hold release` is written only while the user
has not paused the VPN exactly when no network reappears during a user pause with the process
waiting. -/
theorem userPause_respected_iff (clock : Int) (ls : List Event) :
    (∀ x ∈ Machine.history step (init clock) ls, .write .holdRelease ∈ x.out →
        x.post.receiver.userpause = .shouldBeConnected) ↔
      ∀ x ∈ Machine.history step (init clock) ls, ¬ ReappearsPaused x.pre x.label :=
  Machine.forall_history_iff (m := step) (I := fun _ => True)
    (fun _ hx _ hC => ⟨trivial, fun hrel => (step_writes_release hx hrel).resolve_right hC⟩)
    (fun _ hx _ hP hre =>
      (writes_release_of_reappearsPaused hx hre).2 (hP (writes_release_of_reappearsPaused hx hre).1))
    trivial

/-- **A pause that is not respected.** The user pauses, the process waits for its release, and the
network goes down and comes back within the disconnect delay. -/
theorem userPause_counterexample :
    ∃ ls, ∃ x ∈ Machine.history step (init 0) ls, .write .holdRelease ∈ x.out ∧
      x.post.receiver.userpause ≠ .shouldBeConnected := by
  let wifi : NetworkInfo := ⟨1, some "home", true⟩
  refine ⟨[.accept, .register, .device (.networkStateChange true (some wifi)) 0,
    .device (.userPause true) 1000, .processSigusr1 0, .handleHold 2000,
    .device (.networkStateChange true none) 3000,
    .device (.networkStateChange true (some wifi)) 8000],
    _, List.getLast_mem (by decide), by decide, by decide⟩

end System

end PortVpn.Management
