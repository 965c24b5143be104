import PortVpn.Management.HoldProtocol

/-!
# Requests to pause

The receiver asks the management thread to pause from five places. In four of them one of the three
states has just left `SHOULDBECONNECTED`, or the receiver has just seen that one of them is another
value. The fifth is `userPause(false)`: its `else` branch is meant to update the reason of a pause,
and is also taken when the VPN was connected before (`pauseRequests_counterexample`). A running
process is then told to restart. No other event asks a VPN to pause that should be connected
(`pauseRequests_iff`).
-/

set_option autoImplicit false

namespace PortVpn.Management

open PortVpn.Lib

namespace DeviceStateReceiver

/-- A resume request that finds nothing paused. -/
def ResumesUnpaused (r : DeviceStateReceiver) : DeviceEvent → Prop
  | .userPause false => r.shouldBeConnected = true
  | _ => False

/-- **Step lemma.** The receiver asks to pause while the VPN should be connected exactly on a resume
request that finds nothing paused. -/
theorem receive_pause {r : DeviceStateReceiver} {now : Int} {e : DeviceEvent}
    {reason : PauseReason} (h : (r.receive now e).2 = some (.pause reason)) :
    (r.receive now e).1.shouldBeConnected = true ↔ r.ResumesUnpaused e := by
  cases e with
  -- the three pauses of the receiver leave a state behind that is not connected
  | delayDisconnect due =>
      refine iff_of_false ?_ id
      simp only [receive, delayDisconnect] at h ⊢
      split at h
      · rename_i hn
        rw [if_pos hn, shouldBeConnected_iff, settleScreen_network]
        exact fun hc => ConnectState.noConfusion hc.2.2
      · simp at h
  -- a change of the network never pauses at once
  | networkStateChange sendusr1 networkInfo =>
      exfalso
      cases networkInfo with
      | none =>
          simp only [receive, networkStateChange] at h
          split at h <;> simp at h
      | some info =>
          simp only [receive, networkStateChange] at h
          split at h
          · -- a connected network resumes or is reported
            rcases networkConnected_call h with ⟨-, hno⟩ | ⟨hno, -, -⟩
            · exact hno reason rfl
            · exact absurd hno (by simp)
          · simp at h
  | screenOff pref =>
      simp only [receive, screenOff] at h
      split at h
      · split at h <;> simp at h
      · simp at h
  | screenOn =>
      refine iff_of_false ?_ id
      simp only [receive, screenOn] at h ⊢
      split at h
      · simp at h
      · split at h
        · rename_i hsame hnot
          rw [if_neg hsame, if_pos hnot]
          simpa using hnot
        · simp at h
  | updateByteCount diffIn diffOut =>
      refine iff_of_false ?_ id
      simp only [receive, updateByteCount] at h ⊢
      split at h
      · simp at h
      · rename_i hs
        rw [if_neg hs]
        split at h
        · rename_i hlow
          rw [if_pos hlow, shouldBeConnected_iff]
          exact fun hc => ConnectState.noConfusion hc.1
        · simp at h
  | userPause pause =>
      cases pause with
      -- asking for a pause is a pause by the user
      | true =>
          refine iff_of_false ?_ id
          simp only [receive, userPause, if_true]
          rw [shouldBeConnected_iff]
          exact fun hc => ConnectState.noConfusion hc.2.1
      | false =>
          simp only [receive, userPause, Bool.false_eq_true, if_false] at h ⊢
          split at h
          · simp at h
          · rename_i hsame
            rw [if_neg hsame]
            simp only [Bool.and_eq_true, Bool.not_eq_true', not_and, Bool.not_eq_false] at hsame
            constructor
            · exact hsame
            · -- all three states already say so, and the request leaves them alone
              intro hconn
              obtain ⟨hs, -, hn⟩ := shouldBeConnected_iff.1 hconn
              exact shouldBeConnected_iff.2 ⟨hs, rfl, hn⟩

/-- A resume request that finds nothing paused asks to pause. -/
theorem receive_of_resumesUnpaused {r : DeviceStateReceiver} (now : Int) {e : DeviceEvent}
    (h : r.ResumesUnpaused e) : ∃ reason, (r.receive now e).2 = some (.pause reason) := by
  cases e with
  | userPause pause =>
      cases pause with
      | true => exact h.elim
      | false =>
          have hconn : r.shouldBeConnected = true := h
          simp [receive, userPause, hconn]
  | _ => exact h.elim

end DeviceStateReceiver

namespace System

/-- The step is the receiver calling `pause` in a state where the VPN should be connected. -/
def PausesConnected (x : Step System Event Effect) : Prop :=
  ∃ e now reason, x.label = .device e now ∧
    (x.pre.receiver.receive now e).2 = some (.pause reason) ∧
    x.post.receiver.shouldBeConnected = true

/-- The step is a resume request that finds nothing paused and sends SIGUSR1 to the process. -/
def SignalsUnpaused (x : Step System Event Effect) : Prop :=
  ∃ e now, x.label = .device e now ∧ x.pre.receiver.ResumesUnpaused e ∧
    .write .signalSigusr1 ∈ x.out

/-- A resume request finds nothing paused. -/
def ResumesUnpaused (s : System) : Event → Prop
  | .device e _ => s.receiver.ResumesUnpaused e
  | _ => False

theorem deviceStep_receiver (s : System) (now : Int) (e : DeviceEvent) :
    (s.deviceStep now e).1.receiver = (s.receiver.receive now e).1 := by
  cases hc : (s.receiver.receive now e).2 with
  | none => rw [deviceStep_none hc]
  | some c => rw [deviceStep_some hc, managementStep_receiver]

/-- After a device event the receiver is what `receive` makes of it. -/
theorem takes_device {x : Step System Event Effect} (hx : Machine.Takes step x) {e : DeviceEvent}
    {now : Int} (hlabel : x.label = .device e now) :
    x.post.receiver = (x.pre.receiver.receive now e).1 ∧
      x.out = (x.pre.deviceStep now e).2 := by
  simp only [Machine.Takes, hlabel, step] at hx
  split at hx
  · obtain ⟨hpost, hout⟩ := Prod.mk.inj (Option.some.inj hx)
    rw [← hpost, ← hout]
    exact ⟨deviceStep_receiver x.pre now e, rfl⟩
  · simp at hx

/-- **No pause of a VPN that should be connected, exactly.** In a run the receiver calls `pause`
only while the VPN should not be connected, and a resume request that finds nothing paused sends no
SIGUSR1, if and only if no resume request of the run finds nothing paused. -/
theorem pauseRequests_iff (clock : Int) (ls : List Event) :
    (∀ x ∈ Machine.history step (init clock) ls, ¬ PausesConnected x ∧ ¬ SignalsUnpaused x) ↔
      ∀ x ∈ Machine.history step (init clock) ls, ¬ ResumesUnpaused x.pre x.label := by
  apply Machine.forall_history_iff (I := fun _ => True)
  · intro x hx _ hC
    refine ⟨trivial, ?_, ?_⟩
    · rintro ⟨e, now, reason, hlabel, hcall, hconn⟩
      rw [(takes_device hx hlabel).1, DeviceStateReceiver.receive_pause hcall] at hconn
      exact hC (by rwa [hlabel])
    · rintro ⟨e, now, hlabel, hres, -⟩
      exact hC (by rwa [hlabel])
  · intro x hx _ hP hres
    obtain ⟨e, now, hlabel, hres⟩ :
        ∃ e now, x.label = .device e now ∧ x.pre.receiver.ResumesUnpaused e := by
      cases hlabel : x.label with
      | device e now => exact ⟨e, now, rfl, by rwa [hlabel] at hres⟩
      | _ => exact absurd hres (by simp [hlabel, ResumesUnpaused])
    obtain ⟨reason, hcall⟩ := DeviceStateReceiver.receive_of_resumesUnpaused now hres
    refine hP.1 ⟨e, now, reason, hlabel, hcall, ?_⟩
    rw [(takes_device hx hlabel).1, DeviceStateReceiver.receive_pause hcall]
    exact hres
  · trivial

/-- **A running VPN is told to restart.** The process has been released and the network is up, and
the user asks to resume. -/
theorem pauseRequests_counterexample :
    ∃ ls, ∃ x ∈ Machine.history step (init 0) ls,
      x.label = .device (.userPause false) 1000 ∧ x.pre.receiver.shouldBeConnected = true ∧
      x.pre.held = false ∧ PausesConnected x ∧ SignalsUnpaused x := by
  let wifi : NetworkInfo := ⟨1, some "home", true⟩
  let ls : List Event := [.accept, .register, .device (.networkStateChange true (some wifi)) 0,
    .processHold 0, .handleHold 0, .resumeHold 0 0, .device (.userPause false) 1000]
  refine ⟨ls, (Machine.history step (init 0) ls).getLast (by decide), List.getLast_mem (by decide),
    by decide, by decide, by decide, ?_, ?_⟩
  · exact ⟨.userPause false, 1000, .userPause, by decide, by decide, by decide⟩
  · exact ⟨.userPause false, 1000, by decide, (by decide : _ = true), by decide⟩

end System

end PortVpn.Management
