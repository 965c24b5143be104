import Mathlib.Data.List.Basic
import PortVpn.Lib.JavaInt

/-!
# The device state receiver

`DeviceStateReceiver` folds network, screen and user events into three connection states and asks
the management interface to pause, to resume or to report a network change. Every method takes the
clock reading it uses and gives the next receiver and the call it makes on the management
interface, if it makes one. Log output is not modelled.
-/

set_option autoImplicit false

namespace PortVpn.Management

open PortVpn.Lib

/-- `OpenVPNManagement.pauseReason`. -/
inductive PauseReason where
  | noNetwork
  | userPause
  | screenOff
  deriving DecidableEq, Repr

/-- `DeviceStateReceiver.connectState`. -/
inductive ConnectState where
  | shouldBeConnected
  | pendingDisconnect
  | disconnected
  deriving DecidableEq, Repr

/-- The pending posts of one runnable on an `android.os.Handler`: the times they are due. -/
structure Handler where
  pending : List Int := []
  deriving DecidableEq, Repr

namespace Handler

/-- `Handler.postDelayed`. -/
def postDelayed (h : Handler) (now delay : Int) : Handler := ⟨h.pending ++ [now + delay]⟩

/-- `Handler.removeCallbacks`: every pending post of the runnable is taken back. -/
def removeCallbacks (_ : Handler) : Handler := ⟨[]⟩

/-- The post that is due at `due` has been run. -/
def fire (h : Handler) (due : Int) : Handler := ⟨h.pending.erase due⟩

/-- Some post is still to be run. -/
def scheduled (h : Handler) : Bool := !h.pending.isEmpty

@[simp] theorem scheduled_removeCallbacks (h : Handler) : h.removeCallbacks.scheduled = false := rfl

@[simp] theorem scheduled_postDelayed (h : Handler) (now delay : Int) :
    (h.postDelayed now delay).scheduled = true := by
  simp [scheduled, postDelayed]

end Handler

/-- The fields of `android.net.NetworkInfo` that decide what the receiver does. -/
structure NetworkInfo where
  type : Int
  extraInfo : Option String
  connected : Bool
  deriving DecidableEq, Repr

/-- `DeviceStateReceiver.Datapoint`. -/
structure Datapoint where
  timestamp : Int
  data : Int
  deriving DecidableEq, Repr

/-- A call of the receiver on its `OpenVPNManagement`. -/
inductive ManagementCall where
  | pause (reason : PauseReason)
  | resume
  | networkChange (sameNetwork : Bool)
  deriving DecidableEq, Repr

/-- The events the receiver reacts to. -/
inductive DeviceEvent where
  | delayDisconnect (due : Int)
  | networkStateChange (sendusr1 : Bool) (networkInfo : Option NetworkInfo)
  | screenOff (screenOffPause : Bool)
  | screenOn
  | updateByteCount (diffIn diffOut : Int)
  | userPause (pause : Bool)
  deriving DecidableEq, Repr

/-- `TRAFFIC_WINDOW`, in seconds. -/
def trafficWindow : Int := 60

/-- `TRAFFIC_LIMIT`, in bytes. -/
def trafficLimit : Int := 64 * 1024

/-- `DISCONNECT_WAIT`, in seconds. -/
def disconnectWait : Int := 20

/-- The receiver. A new receiver takes the network to be down. -/
structure DeviceStateReceiver where
  network : ConnectState := .disconnected
  screen : ConnectState := .shouldBeConnected
  userpause : ConnectState := .shouldBeConnected
  trafficdata : List Datapoint := []
  lastNetwork : Int := -1
  lastConnectedNetwork : Option NetworkInfo := none
  mDisconnectHandler : Handler := {}
  deriving DecidableEq, Repr

namespace DeviceStateReceiver

def shouldBeConnected (r : DeviceStateReceiver) : Bool :=
  r.screen == .shouldBeConnected && r.userpause == .shouldBeConnected &&
    r.network == .shouldBeConnected

def getPauseReason (r : DeviceStateReceiver) : PauseReason :=
  if r.userpause = .disconnected then .userPause
  else if r.screen = .disconnected then .screenOff
  else if r.network = .disconnected then .noNetwork
  else .userPause

/-- A pending screen disconnect becomes a disconnect. -/
def settleScreen (r : DeviceStateReceiver) : DeviceStateReceiver :=
  if r.screen = .pendingDisconnect then { r with screen := .disconnected } else r

@[simp] theorem settleScreen_network (r : DeviceStateReceiver) :
    r.settleScreen.network = r.network := by
  simp only [settleScreen]
  split <;> rfl

@[simp] theorem settleScreen_handler (r : DeviceStateReceiver) :
    r.settleScreen.mDisconnectHandler = r.mDisconnectHandler := by
  simp only [settleScreen]
  split <;> rfl

/-- `mDelayDisconnectRunnable.run`. -/
def delayDisconnect (r : DeviceStateReceiver) : DeviceStateReceiver × Option ManagementCall :=
  if r.network = .pendingDisconnect then
    let r := { r with network := .disconnected }.settleScreen
    (r, some (.pause r.getPauseReason))
  else (r, none)

/-- `updateByteCount`. The point just added is younger than the window, so `getFirst` finds one. -/
def updateByteCount (r : DeviceStateReceiver) (now diffIn diffOut : Int) :
    DeviceStateReceiver × Option ManagementCall :=
  if r.screen ≠ .pendingDisconnect then (r, none)
  else
    let total := wrap64 (diffIn + diffOut)
    let points := r.trafficdata ++ [⟨now, total⟩]
    -- the loop removes the points in front that are older than the window
    let r := { r with
      trafficdata := points.dropWhile fun p => p.timestamp ≤ now - trafficWindow * 1000 }
    let windowtraffic := r.trafficdata.foldl (fun sum dp => wrap64 (sum + dp.data)) 0
    if windowtraffic < trafficLimit then
      let r := { r with screen := .disconnected }
      (r, some (.pause r.getPauseReason))
    else (r, none)

def userPause (r : DeviceStateReceiver) (pause : Bool) :
    DeviceStateReceiver × Option ManagementCall :=
  if pause then
    let r := { r with userpause := .disconnected }
    (r, some (.pause r.getPauseReason))
  else
    let wereConnected := r.shouldBeConnected
    let r := { r with userpause := .shouldBeConnected }
    if r.shouldBeConnected && !wereConnected then (r, some .resume)
    -- the branch for a pause that goes on, whose reason may have changed
    else (r, some (.pause r.getPauseReason))

def fillTrafficData (r : DeviceStateReceiver) (now : Int) : DeviceStateReceiver :=
  { r with trafficdata := r.trafficdata ++ [⟨now, trafficLimit⟩] }

/-- `onReceive` of `ACTION_SCREEN_OFF`, with the preference `screenoff`. -/
def screenOff (r : DeviceStateReceiver) (screenOffPause : Bool) (now : Int) :
    DeviceStateReceiver × Option ManagementCall :=
  if screenOffPause then
    let r := { r with screen := .pendingDisconnect }
    let r := r.fillTrafficData now
    if r.network = .disconnected ∨ r.userpause = .disconnected then
      ({ r with screen := .disconnected }, none)
    else (r, none)
  else (r, none)

/-- `onReceive` of `ACTION_SCREEN_ON`. -/
def screenOn (r : DeviceStateReceiver) : DeviceStateReceiver × Option ManagementCall :=
  let connected := r.shouldBeConnected
  -- the timer is cancelled, for whatever it was started
  let r := { r with
    screen := .shouldBeConnected, mDisconnectHandler := r.mDisconnectHandler.removeCallbacks }
  if r.shouldBeConnected ≠ connected then (r, some .resume)
  else if !r.shouldBeConnected then (r, some (.pause r.getPauseReason))
  else (r, none)

/-- The comparison of `networkStateChange` with the network of the last connection. -/
def sameNetwork (r : DeviceStateReceiver) (info : NetworkInfo) : Bool :=
  match r.lastConnectedNetwork with
  | none => false
  | some last => last.type == info.type && last.extraInfo == info.extraInfo

/-- The branch of `networkStateChange` for a connected network. -/
def networkConnected (r : DeviceStateReceiver) (info : NetworkInfo) :
    DeviceStateReceiver × Option ManagementCall :=
  let pendingDisconnect := r.network == .pendingDisconnect
  let sameNetwork := r.sameNetwork info
  let r := { r with network := .shouldBeConnected }
  if pendingDisconnect && sameNetwork then
    -- same network, the connection is still established
    ({ r with mDisconnectHandler := r.mDisconnectHandler.removeCallbacks },
      some (.networkChange true))
  else
    let r := r.settleScreen
    let next := { r with lastNetwork := info.type, lastConnectedNetwork := some info }
    if r.shouldBeConnected then
      ({ next with mDisconnectHandler := r.mDisconnectHandler.removeCallbacks },
        if pendingDisconnect || !sameNetwork then some (.networkChange sameNetwork)
        else some .resume)
    else (next, none)

/-- `networkStateChange`, with the preference `netchangereconnect` and the active network. -/
def networkStateChange (r : DeviceStateReceiver) (sendusr1 : Bool)
    (networkInfo : Option NetworkInfo) (now : Int) : DeviceStateReceiver × Option ManagementCall :=
  match networkInfo with
  | some info => if info.connected then r.networkConnected info else (r, none)
  | none =>
      let r := { r with lastNetwork := -1 }
      -- a lost network: the timer decides whether it is reported
      if sendusr1 then
        ({ r with
            network := .pendingDisconnect
            mDisconnectHandler :=
              r.mDisconnectHandler.postDelayed now (wrap32 (disconnectWait * 1000)) }, none)
      else (r, none)

/-- A runnable fires only when it is posted and due; every other event can happen at any time. -/
def enabled (r : DeviceStateReceiver) (now : Int) : DeviceEvent → Bool
  | .delayDisconnect due => r.mDisconnectHandler.pending.contains due && due ≤ now
  | _ => true

/-- The receiver's reaction to an event. -/
def receive (r : DeviceStateReceiver) (now : Int) :
    DeviceEvent → DeviceStateReceiver × Option ManagementCall
  | .delayDisconnect due =>
      { r with mDisconnectHandler := r.mDisconnectHandler.fire due }.delayDisconnect
  | .networkStateChange sendusr1 networkInfo => r.networkStateChange sendusr1 networkInfo now
  | .screenOff screenOffPause => r.screenOff screenOffPause now
  | .screenOn => r.screenOn
  | .updateByteCount diffIn diffOut => r.updateByteCount now diffIn diffOut
  | .userPause pause => r.userPause pause

/-- The network comes back as the network of the last connection while its loss is pending. -/
def Reappears (r : DeviceStateReceiver) : DeviceEvent → Prop
  | .networkStateChange _ (some info) =>
      info.connected = true ∧ r.network = .pendingDisconnect ∧ r.sameNetwork info = true
  | _ => False

instance (r : DeviceStateReceiver) : DecidablePred r.Reappears := by
  intro e
  cases e with
  | networkStateChange sendusr1 networkInfo =>
      cases networkInfo with
      | none => exact .isFalse id
      | some info =>
          exact inferInstanceAs (Decidable (info.connected = true ∧ r.network = .pendingDisconnect ∧
            r.sameNetwork info = true))
  | _ => exact .isFalse id

/-- The receiver wants the VPN connected exactly when all three states say so. -/
theorem shouldBeConnected_iff {r : DeviceStateReceiver} :
    r.shouldBeConnected = true ↔ r.screen = .shouldBeConnected ∧
      r.userpause = .shouldBeConnected ∧ r.network = .shouldBeConnected := by
  simp [shouldBeConnected, and_assoc]

/-- A connected network resumes, or is reported while the VPN should not be connected, only as
`receive_resume` and `receive_networkChange` say. -/
theorem networkConnected_call {r : DeviceStateReceiver} {info : NetworkInfo} {c : ManagementCall}
    (h : (r.networkConnected info).2 = some c) :
    (r.networkConnected info).1.shouldBeConnected = true ∧ (∀ reason, c ≠ .pause reason) ∨
      c = .networkChange true ∧ r.network = .pendingDisconnect ∧ r.sameNetwork info = true := by
  simp only [networkConnected] at h ⊢
  split at h
  · rename_i hsame
    simp only [Bool.and_eq_true, beq_iff_eq] at hsame
    exact Or.inr ⟨(Option.some.inj h).symm, hsame⟩
  · split at h
    · rename_i hsame hconn
      rw [if_neg hsame, if_pos hconn]
      refine Or.inl ⟨hconn, fun reason hc => ?_⟩
      subst hc
      split at h <;> simp at h
    · simp at h

/-- A resume is asked for only when the VPN should be connected. -/
theorem receive_resume {r : DeviceStateReceiver} {now : Int} {e : DeviceEvent}
    (h : (r.receive now e).2 = some .resume) : (r.receive now e).1.shouldBeConnected = true := by
  cases e with
  -- only a connected network, the screen and the user ask for a resume
  | delayDisconnect due =>
      simp only [receive, delayDisconnect] at h
      split at h <;> simp at h
  | networkStateChange sendusr1 networkInfo =>
      cases networkInfo with
      | none =>
          simp only [receive, networkStateChange] at h
          split at h <;> simp at h
      | some info =>
          simp only [receive, networkStateChange] at h ⊢
          split at h
          · rename_i hc
            rw [if_pos hc]
            rcases networkConnected_call h with ⟨hconn, -⟩ | ⟨hbad, -, -⟩
            · exact hconn
            · exact absurd hbad (by decide)
          · simp at h
  | screenOff pref =>
      simp only [receive, screenOff] at h
      split at h
      · split at h <;> simp at h
      · simp at h
  | screenOn =>
      simp only [receive, screenOn] at h ⊢
      split at h
      · rename_i hne
        rw [if_pos hne]
        -- the screen is the only state that changed, and the old value was another one
        by_contra hcon
        refine hne ?_
        rw [Bool.not_eq_true] at hcon
        rw [hcon, eq_comm, ← Bool.not_eq_true, shouldBeConnected_iff]
        rintro ⟨-, hu, hn⟩
        rw [← Bool.not_eq_true, shouldBeConnected_iff] at hcon
        exact hcon ⟨rfl, hu, hn⟩
      · split at h <;> simp at h
  | updateByteCount diffIn diffOut =>
      simp only [receive, updateByteCount] at h
      split at h
      · simp at h
      · split at h <;> simp at h
  | userPause pause =>
      simp only [receive, userPause] at h ⊢
      split at h
      · simp at h
      · rename_i hp
        rw [if_neg hp]
        split at h
        · rename_i hc
          rw [if_pos hc]
          exact (Bool.and_eq_true_iff.1 hc).1
        · simp at h

/-- A network change is reported while the VPN should not be connected only when the network
reappears. -/
theorem receive_networkChange {r : DeviceStateReceiver} {now : Int} {e : DeviceEvent} {same : Bool}
    (h : (r.receive now e).2 = some (.networkChange same)) :
    (r.receive now e).1.shouldBeConnected = true ∨ r.Reappears e := by
  cases e with
  -- only a change of the network is reported as one
  | delayDisconnect due =>
      simp only [receive, delayDisconnect] at h
      split at h <;> simp at h
  | networkStateChange sendusr1 networkInfo =>
      cases networkInfo with
      | none =>
          simp only [receive, networkStateChange] at h
          split at h <;> simp at h
      | some info =>
          simp only [receive, networkStateChange] at h ⊢
          split at h
          · rename_i hc
            rw [if_pos hc]
            rcases networkConnected_call h with ⟨hconn, -⟩ | ⟨-, hbad⟩
            · exact Or.inl hconn
            · exact Or.inr ⟨hc, hbad⟩
          · simp at h
  | screenOff pref =>
      simp only [receive, screenOff] at h
      split at h
      · split at h <;> simp at h
      · simp at h
  | screenOn =>
      simp only [receive, screenOn] at h
      split at h
      · simp at h
      · split at h <;> simp at h
  | updateByteCount diffIn diffOut =>
      simp only [receive, updateByteCount] at h
      split at h
      · simp at h
      · split at h <;> simp at h
  | userPause pause =>
      simp only [receive, userPause] at h
      split at h
      · simp at h
      · split at h <;> simp at h

/-- A reappearing network is reported, and leaves the screen and the user state as they are. -/
theorem receive_of_reappears {r : DeviceStateReceiver} {now : Int} {e : DeviceEvent}
    (h : r.Reappears e) :
    (r.receive now e).2 = some (.networkChange true) ∧
      (r.receive now e).1.userpause = r.userpause ∧ (r.receive now e).1.screen = r.screen := by
  cases e with
  | networkStateChange sendusr1 networkInfo =>
      cases networkInfo with
      | none => exact h.elim
      | some info =>
          obtain ⟨hc, hn, hs⟩ := h
          simp [receive, networkStateChange, networkConnected, hc, hn, hs]
  | _ => exact h.elim

end DeviceStateReceiver

end PortVpn.Management
