import Mathlib.Algebra.Order.BigOperators.Group.List
import PortVpn.Lib.Machine
import PortVpn.Lib.SlidingWindow
import PortVpn.Management.DeviceStateReceiver

/-!
# The receiver against a clock

The receiver alone, against a clock that never goes back: a label is a device event and the clock
reading it happens at, a step is what `receive` does, and the outputs are the calls on the
management interface. A posted runnable fires at any time from when it is due.

The delayed disconnect is posted when the network goes away and is meant to run exactly while the
network is `PENDINGDISCONNECT`. Three kinds of step leave the timer and the state apart: the screen
is turned on while the disconnect is pending, another network arrives while the VPN is paused for
another reason, and the runnable fires while it is posted a second time
(`disconnectTimer_counterexample`). Nothing else does (`disconnectTimer_iff`).

The traffic that decides whether a VPN with the screen off may pause is summed over the last 60
seconds of everything recorded, as a 64-bit sum (`trafficWindow_exact`); byte counts near the end
of the range make that sum negative (`trafficWindow_counterexample`).
-/

set_option autoImplicit false

namespace PortVpn.Management

open PortVpn.Lib

/-- The receiver and the last clock reading. -/
structure Device where
  receiver : DeviceStateReceiver := {}
  clock : Int := 0
  deriving DecidableEq, Repr

/-- A device event and the clock reading it happens at. -/
structure Timed where
  event : DeviceEvent
  now : Int
  deriving DecidableEq, Repr

/-- One step of the receiver's history. -/
abbrev DeviceRecord := Step Device Timed ManagementCall

namespace Device

/-- A new receiver, registered when the clock reads `clock`. -/
def new (clock : Int) : Device := { clock }

/-- One event. -/
def step : Machine Device Timed ManagementCall := fun s l =>
  if s.receiver.enabled l.now l.event && s.clock ≤ l.now then
    let r := s.receiver.receive l.now l.event
    some (⟨r.1, l.now⟩, r.2.toList)
  else none

/-- What a step of the machine is. -/
theorem takes_iff {x : DeviceRecord} :
    step.Takes x ↔ x.pre.receiver.enabled x.label.now x.label.event = true ∧
      x.pre.clock ≤ x.label.now ∧
      x.post = ⟨(x.pre.receiver.receive x.label.now x.label.event).1, x.label.now⟩ ∧
      x.out = (x.pre.receiver.receive x.label.now x.label.event).2.toList := by
  simp only [Machine.Takes, step]
  split
  · rename_i h
    simp only [Bool.and_eq_true, decide_eq_true_eq] at h
    simp only [Option.some.injEq, Prod.mk.injEq, h, true_and]
    exact and_congr eq_comm eq_comm
  · rename_i h
    simp only [Bool.and_eq_true, decide_eq_true_eq] at h
    constructor
    · intro hnone
      simp at hnone
    · intro hx
      exact absurd ⟨hx.1, hx.2.1⟩ h

end Device

/-! ## What an event does to the network state and the timer -/

namespace DeviceStateReceiver

variable (r : DeviceStateReceiver) (now : Int)

theorem delayDisconnect_handler :
    r.delayDisconnect.1.mDisconnectHandler = r.mDisconnectHandler := by
  simp only [delayDisconnect]
  split
  · rw [settleScreen_handler]
  · rfl

theorem delayDisconnect_network (h : r.network = .pendingDisconnect) :
    r.delayDisconnect.1.network = .disconnected := by
  simp only [delayDisconnect, if_pos h, settleScreen_network]

theorem networkConnected_network (info : NetworkInfo) :
    (r.networkConnected info).1.network = .shouldBeConnected := by
  simp only [networkConnected]
  split
  · rfl
  · split <;> simp

/-- A connected network takes the posted runnable back unless it is another network than the last
one and the VPN stays paused for another reason. -/
theorem networkConnected_handler (info : NetworkInfo) :
    (r.networkConnected info).1.mDisconnectHandler =
      if (r.network = .pendingDisconnect ∧ r.sameNetwork info = true) ∨
          (r.screen = .shouldBeConnected ∧ r.userpause = .shouldBeConnected)
      then r.mDisconnectHandler.removeCallbacks else r.mDisconnectHandler := by
  have hconn : ({ r with network := .shouldBeConnected }.settleScreen).shouldBeConnected = true ↔
      r.screen = .shouldBeConnected ∧ r.userpause = .shouldBeConnected := by
    rw [shouldBeConnected_iff, settleScreen]
    split
    · rename_i hs
      simp [show r.screen = .pendingDisconnect from hs]
    · simp
  simp only [networkConnected]
  split
  · rename_i hsame
    simp only [Bool.and_eq_true, beq_iff_eq] at hsame
    rw [if_pos (Or.inl hsame)]
  · rename_i hsame
    simp only [Bool.and_eq_true, beq_iff_eq] at hsame
    split
    · rename_i hc
      rw [if_pos (Or.inr (hconn.1 hc)), settleScreen_handler]
    · rename_i hc
      rw [if_neg (not_or.2 ⟨hsame, fun h => hc (hconn.2 h)⟩)]
      exact settleScreen_handler _

theorem networkConnected_trafficdata (info : NetworkInfo) :
    (r.networkConnected info).1.trafficdata = r.trafficdata := by
  simp only [networkConnected]
  split
  · rfl
  · split <;> simp [settleScreen, apply_ite]

/-- The events that leave the network state and the posted runnable alone. -/
def LeavesTimer : DeviceEvent → Prop
  | .delayDisconnect _ => False
  | .networkStateChange sendusr1 none => sendusr1 = false
  | .networkStateChange _ (some info) => info.connected = false
  | .screenOn => False
  | _ => True

theorem receive_of_leavesTimer {e : DeviceEvent} (h : LeavesTimer e) :
    (r.receive now e).1.network = r.network ∧
      (r.receive now e).1.mDisconnectHandler = r.mDisconnectHandler := by
  cases e with
  | delayDisconnect due => exact h.elim
  | networkStateChange sendusr1 networkInfo =>
      cases networkInfo with
      | none =>
          have h : sendusr1 = false := h
          subst h
          exact ⟨rfl, rfl⟩
      | some info =>
          have h : info.connected = false := h
          simp [receive, networkStateChange, h]
  | screenOff pref =>
      simp only [receive, screenOff]
      split
      · split <;> exact ⟨rfl, rfl⟩
      · exact ⟨rfl, rfl⟩
  | screenOn => exact h.elim
  | updateByteCount diffIn diffOut =>
      simp only [receive, updateByteCount]
      split
      · exact ⟨rfl, rfl⟩
      · split <;> exact ⟨rfl, rfl⟩
  | userPause pause =>
      simp only [receive, userPause]
      split
      · exact ⟨rfl, rfl⟩
      · split <;> exact ⟨rfl, rfl⟩

theorem receive_screenOn :
    (r.receive now .screenOn).1.network = r.network ∧
      (r.receive now .screenOn).1.mDisconnectHandler.scheduled = false := by
  simp only [receive, screenOn]
  split
  · exact ⟨rfl, rfl⟩
  · split <;> exact ⟨rfl, rfl⟩

/-- An update that finds the screen pending keeps the window, and disconnects the screen if too
little traffic is left in it. -/
theorem updateByteCount_pending (h : r.screen = .pendingDisconnect) (diffIn diffOut : Int) :
    (r.updateByteCount now diffIn diffOut).1.trafficdata =
        (r.trafficdata ++ [(⟨now, wrap64 (diffIn + diffOut)⟩ : Datapoint)]).dropWhile
          (fun p => p.timestamp ≤ now - trafficWindow * 1000) ∧
      ((r.updateByteCount now diffIn diffOut).1.screen = .disconnected ↔
        ((r.updateByteCount now diffIn diffOut).1.trafficdata.foldl
          (fun sum dp => wrap64 (sum + dp.data)) 0) < trafficLimit) := by
  simp only [updateByteCount, h, ne_eq, not_true_eq_false, if_false]
  split
  · rename_i hlow
    exact ⟨rfl, iff_of_true rfl hlow⟩
  · rename_i hlow
    exact ⟨rfl, iff_of_false (fun hd => ConnectState.noConfusion hd) hlow⟩

/-- **The steps that leave the timer behind.** The runnable runs while it is posted once more;
another network arrives during a pending disconnect while the screen or the user keeps the VPN
paused; the screen is turned on during a pending disconnect. -/
def Strands (r : DeviceStateReceiver) : DeviceEvent → Prop
  | .delayDisconnect due => (r.mDisconnectHandler.fire due).scheduled = true
  | .networkStateChange _ (some info) =>
      info.connected = true ∧ r.network = .pendingDisconnect ∧ r.sameNetwork info = false ∧
        ¬ (r.screen = .shouldBeConnected ∧ r.userpause = .shouldBeConnected)
  | .screenOn => r.network = .pendingDisconnect
  | _ => False

theorem not_strands_of_leavesTimer {e : DeviceEvent} (h : LeavesTimer e) : ¬ r.Strands e := by
  cases e with
  | delayDisconnect due => exact h.elim
  | networkStateChange sendusr1 networkInfo =>
      cases networkInfo with
      | none => exact id
      | some info =>
          intro hs
          exact absurd (h.symm.trans hs.1) Bool.false_ne_true
  | screenOn => exact h.elim
  | _ => exact id

end DeviceStateReceiver

/-! ## The disconnect timer -/

namespace Device

/-- The post that is due at `due` was made 20 seconds before, by a loss of the network since which
the network has been pending. -/
def PostedInPeriod (past : List DeviceRecord) (due : Int) : Prop :=
  ∃ before x since, past = before ++ x :: since ∧
    x.label.event = .networkStateChange true none ∧ due = x.label.now + 20 * 1000 ∧
    ∀ y ∈ x :: since, y.post.receiver.network = .pendingDisconnect

/-- **The timer runs exactly while a disconnect is pending**, and every post of it is of the
current pending period. -/
structure TimerExact (start : Device) (past : List DeviceRecord) : Prop where
  scheduled_iff : (Machine.stateAfter start past).receiver.mDisconnectHandler.scheduled = true ↔
    (Machine.stateAfter start past).receiver.network = .pendingDisconnect
  posted : ∀ due ∈ (Machine.stateAfter start past).receiver.mDisconnectHandler.pending,
    PostedInPeriod past due

variable {start : Device} {past : List DeviceRecord} {x : DeviceRecord}

theorem PostedInPeriod.concat {due : Int} (h : PostedInPeriod past due)
    (hx : x.post.receiver.network = .pendingDisconnect) : PostedInPeriod (past ++ [x]) due := by
  obtain ⟨before, y, since, rfl, hlabel, hdue, hall⟩ := h
  refine ⟨before, y, since ++ [x], by simp, hlabel, hdue, ?_⟩
  intro z hz
  rw [← List.cons_append, List.mem_append, List.mem_singleton] at hz
  rcases hz with hz | rfl
  · exact hall z hz
  · exact hx

theorem timerExact_nil (clock : Int) : TimerExact (new clock) [] := by
  constructor
  · exact iff_of_false Bool.false_ne_true (fun h => ConnectState.noConfusion h)
  · intro due hdue
    exact absurd hdue List.not_mem_nil

/-- A step that leaves the network state and the timer alone. -/
theorem TimerExact.keep (hpre : x.pre = Machine.stateAfter start past) (h : TimerExact start past)
    (hn : x.post.receiver.network = x.pre.receiver.network)
    (hh : x.post.receiver.mDisconnectHandler = x.pre.receiver.mDisconnectHandler) :
    TimerExact start (past ++ [x]) := by
  rw [hpre] at hn hh
  constructor
  · rw [Machine.stateAfter_concat, hn, hh]
    exact h.scheduled_iff
  · intro due hdue
    rw [Machine.stateAfter_concat, hh] at hdue
    apply (h.posted due hdue).concat
    rw [hn, ← h.scheduled_iff]
    -- a post is pending, so the timer is scheduled
    simpa [Handler.scheduled] using List.ne_nil_of_mem hdue

/-- A step after which nothing is posted. -/
theorem timerExact_concat_of_not_scheduled
    (hh : x.post.receiver.mDisconnectHandler.scheduled = false) :
    TimerExact start (past ++ [x]) ↔ x.post.receiver.network ≠ .pendingDisconnect := by
  constructor
  · intro h hn
    have := h.scheduled_iff.2 (by rwa [Machine.stateAfter_concat])
    rw [Machine.stateAfter_concat, hh] at this
    exact Bool.false_ne_true this
  · intro hn
    constructor
    · rw [Machine.stateAfter_concat, hh]
      exact ⟨fun h => absurd h Bool.false_ne_true, fun h => absurd h hn⟩
    · intro due hdue
      rw [Machine.stateAfter_concat] at hdue
      have hempty : x.post.receiver.mDisconnectHandler.pending = [] := by
        simpa [Handler.scheduled] using hh
      rw [hempty] at hdue
      exact absurd hdue List.not_mem_nil

/-- A step after which something is posted though no disconnect is pending. -/
theorem not_timerExact_concat (hh : x.post.receiver.mDisconnectHandler.scheduled = true)
    (hn : x.post.receiver.network ≠ .pendingDisconnect) : ¬ TimerExact start (past ++ [x]) := by
  intro h
  have := h.scheduled_iff.1
  rw [Machine.stateAfter_concat] at this
  exact hn (this hh)

/-- The loss of the network posts the runnable, in a pending period that begins now or began with
the posts that are pending. -/
theorem TimerExact.post (hpre : x.pre = Machine.stateAfter start past) (h : TimerExact start past)
    (hlabel : x.label.event = .networkStateChange true none)
    (hn : x.post.receiver.network = .pendingDisconnect)
    (hh : x.post.receiver.mDisconnectHandler =
      x.pre.receiver.mDisconnectHandler.postDelayed x.label.now (20 * 1000)) :
    TimerExact start (past ++ [x]) := by
  constructor
  · rw [Machine.stateAfter_concat, hh, Handler.scheduled_postDelayed, hn]
    exact ⟨fun _ => rfl, fun _ => rfl⟩
  · intro due hdue
    rw [Machine.stateAfter_concat, hh, Handler.postDelayed, List.mem_append,
      List.mem_singleton] at hdue
    rcases hdue with hdue | rfl
    · rw [hpre] at hdue
      exact (h.posted due hdue).concat hn
    · refine ⟨past, x, [], rfl, hlabel, rfl, ?_⟩
      intro y hy
      rw [List.mem_singleton] at hy
      rw [hy, hn]

/-- The runnable runs. A post of it that fires was pending, so the network state was pending as
well and is settled now; what is left over is the posts that did not fire. -/
theorem timerExact_concat_delayDisconnect {due : Int}
    (hfired : due ∈ x.pre.receiver.mDisconnectHandler.pending)
    (hiff : x.pre.receiver.mDisconnectHandler.scheduled = true ↔
      x.pre.receiver.network = .pendingDisconnect)
    (hpost : x.post.receiver = (x.pre.receiver.receive x.label.now (.delayDisconnect due)).1) :
    TimerExact start (past ++ [x]) ↔ ¬ x.pre.receiver.Strands (.delayDisconnect due) := by
  have hsched : x.pre.receiver.mDisconnectHandler.scheduled = true := by
    simpa [Handler.scheduled] using List.ne_nil_of_mem hfired
  have hn : x.post.receiver.network = .disconnected := by
    rw [hpost]
    exact DeviceStateReceiver.delayDisconnect_network _ (hiff.1 hsched)
  have hh : x.post.receiver.mDisconnectHandler = x.pre.receiver.mDisconnectHandler.fire due := by
    rw [hpost]
    exact DeviceStateReceiver.delayDisconnect_handler _
  have hne : x.post.receiver.network ≠ .pendingDisconnect := by
    rw [hn]
    exact fun h => ConnectState.noConfusion h
  cases hs : (x.pre.receiver.mDisconnectHandler.fire due).scheduled with
  | true =>
      apply iff_of_false
      · apply not_timerExact_concat
        · rw [hh, hs]
        · exact hne
      · exact not_not.2 hs
  | false =>
      rw [timerExact_concat_of_not_scheduled (by rw [hh, hs])]
      apply iff_of_true hne
      intro hstr
      exact absurd (hs.symm.trans hstr) Bool.false_ne_true

/-- A connected network arrives, after which none is pending. The posts stay exactly where the
network was pending, is another one now, and the VPN stays paused. -/
theorem timerExact_concat_connected {sendusr1 : Bool} {info : NetworkInfo}
    (hc : info.connected = true)
    (hiff : x.pre.receiver.mDisconnectHandler.scheduled = true ↔
      x.pre.receiver.network = .pendingDisconnect)
    (hpost : x.post.receiver =
      (x.pre.receiver.receive x.label.now (.networkStateChange sendusr1 (some info))).1) :
    TimerExact start (past ++ [x]) ↔
      ¬ x.pre.receiver.Strands (.networkStateChange sendusr1 (some info)) := by
  have hr : x.post.receiver = (x.pre.receiver.networkConnected info).1 := by
    rw [hpost]
    simp [DeviceStateReceiver.receive, DeviceStateReceiver.networkStateChange, hc]
  have hn : x.post.receiver.network ≠ .pendingDisconnect := by
    rw [hr, DeviceStateReceiver.networkConnected_network]
    exact fun h => ConnectState.noConfusion h
  have hh := x.pre.receiver.networkConnected_handler info
  rw [← hr] at hh
  cases hs : x.post.receiver.mDisconnectHandler.scheduled with
  | false =>
      rw [timerExact_concat_of_not_scheduled hs]
      apply iff_of_true hn
      rintro ⟨-, hpend, hsame, hpaused⟩
      -- such a step would leave the posts alone, and the pending network had one
      have hcond : ¬ ((x.pre.receiver.network = .pendingDisconnect ∧
          x.pre.receiver.sameNetwork info = true) ∨
          (x.pre.receiver.screen = .shouldBeConnected ∧
            x.pre.receiver.userpause = .shouldBeConnected)) := by
        rintro (⟨-, hbad⟩ | hbad)
        · exact absurd (hsame.symm.trans hbad) Bool.false_ne_true
        · exact hpaused hbad
      rw [hh, if_neg hcond, hiff.2 hpend] at hs
      exact Bool.false_ne_true hs.symm
  | true =>
      apply iff_of_false (not_timerExact_concat hs hn)
      apply not_not.2
      rw [hh] at hs
      split at hs
      · exact absurd hs (by simp)
      · rename_i hcond
        obtain ⟨hnet, hpaused⟩ := not_or.1 hcond
        refine ⟨hc, hiff.1 hs, ?_, hpaused⟩
        rw [← Bool.not_eq_true]
        exact fun hsame => hnet ⟨hiff.1 hs, hsame⟩

/-- The screen is turned on. The posts are taken back, whatever the network state. -/
theorem timerExact_concat_screenOn
    (hpost : x.post.receiver = (x.pre.receiver.receive x.label.now .screenOn).1) :
    TimerExact start (past ++ [x]) ↔ ¬ x.pre.receiver.Strands .screenOn := by
  obtain ⟨hn, hh⟩ := x.pre.receiver.receive_screenOn x.label.now
  rw [← hpost] at hn hh
  rw [timerExact_concat_of_not_scheduled hh, hn]
  exact Iff.rfl

/-- **Step lemma.** A step keeps the timer exact if and only if it does not strand it. -/
theorem timerExact_concat_iff (hx : step.Takes x) (hpre : x.pre = Machine.stateAfter start past)
    (h : TimerExact start past) :
    TimerExact start (past ++ [x]) ↔ ¬ x.pre.receiver.Strands x.label.event := by
  obtain ⟨henabled, -, hpost, -⟩ := takes_iff.1 hx
  have hiff := h.scheduled_iff
  rw [← hpre] at hiff
  obtain ⟨pre, ⟨e, now⟩, post, out⟩ := x
  dsimp only at henabled hpost hiff hpre ⊢
  have hreceiver : post.receiver = (pre.receiver.receive now e).1 := by
    rw [hpost]
  by_cases hleaves : DeviceStateReceiver.LeavesTimer e
  -- these events touch neither the network nor the timer
  · obtain ⟨hn, hh⟩ := pre.receiver.receive_of_leavesTimer now hleaves
    apply iff_of_true
    · apply h.keep hpre
      · rw [hreceiver, hn]
      · rw [hreceiver, hh]
    · exact pre.receiver.not_strands_of_leavesTimer hleaves
  · cases e with
    | delayDisconnect due =>
        simp only [DeviceStateReceiver.enabled, Bool.and_eq_true, List.contains_eq_mem,
          decide_eq_true_eq] at henabled
        exact timerExact_concat_delayDisconnect henabled.1 hiff hreceiver
    | networkStateChange sendusr1 networkInfo =>
        cases networkInfo with
        | none =>
            -- a lost network posts the timer and makes the network pending
            have hp : sendusr1 = true := by simpa [DeviceStateReceiver.LeavesTimer] using hleaves
            subst hp
            apply iff_of_true
            · apply h.post hpre rfl
              · rw [hreceiver]
                rfl
              · rw [hreceiver]
                rfl
            · exact id
        | some info =>
            have hc : info.connected = true := by
              simpa [DeviceStateReceiver.LeavesTimer] using hleaves
            exact timerExact_concat_connected hc hiff hreceiver
    | screenOn => exact timerExact_concat_screenOn hreceiver
    | screenOff pref => exact absurd trivial hleaves
    | updateByteCount diffIn diffOut => exact absurd trivial hleaves
    | userPause pause => exact absurd trivial hleaves

/-- **The disconnect timer, exactly.** In a run of a new receiver the runnable is scheduled exactly
while the network is pending, and was posted 20 seconds before it is due in the current pending
period, throughout the run if and only if no step of the run strands it. -/
theorem disconnectTimer_iff (clock : Int) (ls : List Timed) :
    (∀ p, p <+: ls → TimerExact (new clock) (step.history (new clock) p)) ↔
      ∀ x ∈ step.history (new clock) ls, ¬ x.pre.receiver.Strands x.label.event :=
  Machine.forall_prefix_iff (timerExact_nil clock)
    (fun _ _ hx hpre hpast => timerExact_concat_iff hx hpre hpast) ls

/-- **A pending disconnect with no timer.** The network goes down and the screen is turned on. -/
theorem disconnectTimer_counterexample :
    ∃ ls : List Timed, (∀ l ∈ ls, ∀ info, l.event ≠ .networkStateChange false info) ∧
      ¬ TimerExact (new 0) (step.history (new 0) ls) := by
  refine ⟨[⟨.networkStateChange true none, 0⟩, ⟨.screenOn, 1000⟩], by simp, ?_⟩
  intro h
  exact absurd h.scheduled_iff (by decide)

/-! ## The traffic window -/

/-- The point a step records, with the byte difference as it is: the limit when the screen is
turned off, the traffic of an update that finds the screen pending. -/
def recordedBy (x : DeviceRecord) : List Datapoint :=
  match x.label.event with
  | .screenOff true => [⟨x.label.now, 64 * 1024⟩]
  | .updateByteCount diffIn diffOut =>
      if x.pre.receiver.screen = .pendingDisconnect then [⟨x.label.now, diffIn + diffOut⟩] else []
  | _ => []

/-- All points recorded so far. -/
def recorded (past : List DeviceRecord) : List Datapoint := past.flatMap recordedBy

/-- The sum of the data recorded later than 60 seconds before `now`. -/
def windowSum (past : List DeviceRecord) (now : Int) : Int :=
  (((recorded past).filter fun p => now - 60 * 1000 < p.timestamp).map Datapoint.data).sum

/-- The loop of `updateByteCount` over `trafficdata`, and `none` where `getFirst` finds the list
empty. -/
def dropOld (now : Int) : List Datapoint → Option (List Datapoint)
  | [] => none
  | p :: rest =>
      if p.timestamp ≤ now - trafficWindow * 1000 then dropOld now rest else some (p :: rest)

/-- The byte differences an event reports are not negative. -/
def NonnegBytes : DeviceEvent → Prop
  | .updateByteCount diffIn diffOut => 0 ≤ diffIn ∧ 0 ≤ diffOut
  | _ => True

/-- A point as the list holds it: its data is a `long`. -/
def stored (p : Datapoint) : Datapoint := { p with data := wrap64 p.data }

/-- `trafficdata` holds the recent end of everything recorded. -/
def WindowInv (start : Device) (past : List DeviceRecord) : Prop :=
  ∃ kept, Retains Datapoint.timestamp (recorded past) kept
      ((Machine.stateAfter start past).clock - 60 * 1000) (Machine.stateAfter start past).clock ∧
    (Machine.stateAfter start past).receiver.trafficdata = kept.map stored

theorem recorded_concat (past : List DeviceRecord) (x : DeviceRecord) :
    recorded (past ++ [x]) = recorded past ++ recordedBy x := by
  simp [recorded]

theorem timestamp_of_mem_recordedBy {p : Datapoint} (h : p ∈ recordedBy x) :
    p.timestamp = x.label.now := by
  simp only [recordedBy] at h
  split at h
  · rw [List.mem_singleton.1 h]
  · split at h
    · rw [List.mem_singleton.1 h]
    · simp at h
  · simp at h

/-- A loop that ends with a point younger than the window drops the older points and never finds
the list empty. -/
theorem dropOld_concat (now : Int) (p : Datapoint) (hp : now - trafficWindow * 1000 < p.timestamp)
    (l : List Datapoint) :
    dropOld now (l ++ [p]) =
      some ((l ++ [p]).dropWhile fun q => q.timestamp ≤ now - trafficWindow * 1000) := by
  induction l with
  | nil => simp [dropOld, Int.not_le.2 hp]
  | cons q l ih =>
      rw [List.cons_append, dropOld, List.dropWhile_cons]
      by_cases hq : q.timestamp ≤ now - trafficWindow * 1000
      · rw [if_pos hq, if_pos (by simpa using hq), ih]
      · rw [if_neg hq, if_neg (by simpa using hq)]

/-- What a step does to the list: it stays, it gets the recorded point, or it gets the point and
loses those that are too old. -/
theorem step_trafficdata (hx : step.Takes x) :
    x.post.receiver.trafficdata =
        x.pre.receiver.trafficdata ++ (recordedBy x).map stored ∨
      ∃ p, recordedBy x = [p] ∧ x.post.receiver.trafficdata =
        (x.pre.receiver.trafficdata ++ [stored p]).dropWhile
          (fun q => q.timestamp ≤ x.label.now - 60 * 1000) := by
  obtain ⟨-, -, hpost, -⟩ := takes_iff.1 hx
  obtain ⟨pre, ⟨e, now⟩, post, out⟩ := x
  dsimp only at hpost ⊢
  subst hpost
  cases e with
  | delayDisconnect due =>
      left
      simp only [DeviceStateReceiver.receive, DeviceStateReceiver.delayDisconnect, recordedBy]
      split
      · simp [DeviceStateReceiver.settleScreen, apply_ite]
      · simp
  | networkStateChange sendusr1 networkInfo =>
      left
      cases networkInfo with
      | none =>
          simp only [DeviceStateReceiver.receive, DeviceStateReceiver.networkStateChange, recordedBy]
          split <;> simp
      | some info =>
          simp only [DeviceStateReceiver.receive, DeviceStateReceiver.networkStateChange, recordedBy,
            List.map_nil, List.append_nil]
          split
          · exact pre.receiver.networkConnected_trafficdata info
          · rfl
  -- the point that stands for the traffic before the screen was turned off
  | screenOff pref =>
      left
      cases pref with
      | false => simp [DeviceStateReceiver.receive, DeviceStateReceiver.screenOff, recordedBy]
      | true =>
          have hlimit : stored ⟨now, 64 * 1024⟩ = ⟨now, trafficLimit⟩ := by
            simp [stored, trafficLimit, wrap64_eq_self]
          simp only [DeviceStateReceiver.receive, DeviceStateReceiver.screenOff, if_true, recordedBy,
            List.map_cons, List.map_nil, hlimit]
          split <;> rfl
  | screenOn =>
      left
      simp only [DeviceStateReceiver.receive, DeviceStateReceiver.screenOn, recordedBy]
      split
      · simp
      · split <;> simp
  | updateByteCount diffIn diffOut =>
      by_cases hs : pre.receiver.screen = .pendingDisconnect
      -- a pending update records its bytes and drops what is older than the window
      · right
        refine ⟨⟨now, diffIn + diffOut⟩, by simp [recordedBy, hs], ?_⟩
        exact (pre.receiver.updateByteCount_pending now hs diffIn diffOut).1
      · left
        simp [DeviceStateReceiver.receive, DeviceStateReceiver.updateByteCount, recordedBy, hs]
  | userPause pause =>
      left
      simp only [DeviceStateReceiver.receive, DeviceStateReceiver.userPause, recordedBy]
      split
      · simp
      · split <;> simp

theorem windowInv_nil (clock : Int) : WindowInv (new clock) [] :=
  ⟨[], Retains.nil _ _, rfl⟩

/-- What the kept points become when a step records a point. -/
theorem retains_recordedBy {kept : List Datapoint} {cutoff latest : Int}
    (h : Retains Datapoint.timestamp (recorded past) kept cutoff latest)
    (hclock : latest ≤ x.label.now) :
    Retains Datapoint.timestamp (recorded (past ++ [x])) (kept ++ recordedBy x) cutoff
      x.label.now := by
  rw [recorded_concat]
  have hlen : recordedBy x = [] ∨ ∃ p, recordedBy x = [p] := by
    simp only [recordedBy]
    split
    · exact Or.inr ⟨_, rfl⟩
    · split
      · exact Or.inr ⟨_, rfl⟩
      · exact Or.inl rfl
    · exact Or.inl rfl
  rcases hlen with hnil | ⟨p, hp⟩
  · rw [hnil, List.append_nil, List.append_nil]
    exact h.mono le_rfl hclock
  · have htime : p.timestamp = x.label.now := timestamp_of_mem_recordedBy (by simp [hp])
    rw [hp, ← htime]
    apply h.concat
    rw [htime]
    exact hclock

/-- **Step lemma.** Every step keeps the list the recent end of everything recorded. -/
theorem WindowInv.concat (hx : step.Takes x) (hpre : x.pre = Machine.stateAfter start past)
    (h : WindowInv start past) : WindowInv start (past ++ [x]) := by
  obtain ⟨kept, hret, hdata⟩ := h
  obtain ⟨-, hclock, hpost, -⟩ := takes_iff.1 hx
  have hnow : x.post.clock = x.label.now := by rw [hpost]
  rw [← hpre] at hret hdata
  have hrec := retains_recordedBy hret hclock
  simp only [WindowInv, Machine.stateAfter_concat, hnow]
  rcases step_trafficdata hx with hstep | ⟨p, hp, hstep⟩
  · refine ⟨kept ++ recordedBy x, hrec.mono (by omega) le_rfl, ?_⟩
    rw [hstep, hdata, List.map_append]
  · rw [hp] at hrec
    refine ⟨_, hrec.dropWhile (by omega), ?_⟩
    rw [hstep, hdata, ← List.map_singleton, ← List.map_append, List.dropWhile_map]
    rfl

/-- An update that finds the screen pending sums exactly the window, in 64-bit arithmetic. -/
theorem update_sums_window (hx : step.Takes x) (hpre : x.pre = Machine.stateAfter start past)
    (h : WindowInv start past) {diffIn diffOut : Int}
    (he : x.label.event = .updateByteCount diffIn diffOut)
    (hs : x.pre.receiver.screen = .pendingDisconnect) :
    x.post.receiver.screen = .disconnected ↔
      wrap64 (windowSum (past ++ [x]) x.label.now) < 64 * 1024 := by
  obtain ⟨kept, hret, hdata⟩ := h
  obtain ⟨-, hclock, hpost, -⟩ := takes_iff.1 hx
  rw [← hpre] at hret hdata
  have hrec := retains_recordedBy hret hclock
  have hp : recordedBy x = [⟨x.label.now, diffIn + diffOut⟩] := by
    simp [recordedBy, he, hs]
  rw [hp] at hrec
  obtain ⟨hpoints, hscreen⟩ :=
    x.pre.receiver.updateByteCount_pending x.label.now hs diffIn diffOut
  have hreceive : x.post.receiver =
      (x.pre.receiver.updateByteCount x.label.now diffIn diffOut).1 := by
    rw [hpost, he]
    rfl
  -- the points that stay are those of the window
  have hwindow : x.post.receiver.trafficdata =
      ((recorded (past ++ [x])).filter
        fun p => decide (x.label.now - 60 * 1000 < p.timestamp)).map stored := by
    rw [← hrec.dropWhile_eq_filter (by omega), hreceive, hpoints, hdata]
    have hlast : [(⟨x.label.now, wrap64 (diffIn + diffOut)⟩ : Datapoint)] =
        [(⟨x.label.now, diffIn + diffOut⟩ : Datapoint)].map stored := rfl
    rw [hlast, ← List.map_append, List.dropWhile_map]
    rfl
  rw [← hreceive, hwindow] at hscreen
  rw [hscreen, List.foldl_map]
  have hsum := foldl_wrap64 Datapoint.data ((recorded (past ++ [x])).filter
    fun p => decide (x.label.now - 60 * 1000 < p.timestamp)) 0
  simp only [stored, wrap64_add_wrap64]
  rw [wrap64_eq_self (by decide) (by decide), zero_add] at hsum
  rw [hsum]
  exact Iff.rfl

/-- Points of a run with non-negative byte differences hold non-negative data. -/
theorem data_nonneg {ls : List Timed} (hbytes : ∀ l ∈ ls, NonnegBytes l.event) {p : Datapoint}
    (hp : p ∈ recorded (step.history start ls)) : 0 ≤ p.data := by
  rw [recorded, List.mem_flatMap] at hp
  obtain ⟨x, hx, hp⟩ := hp
  have hlabel := hbytes _ (Machine.label_mem_of_mem_history hx)
  simp only [recordedBy] at hp
  split at hp
  · rw [List.mem_singleton.1 hp]
    exact (by decide : (0 : Int) ≤ 64 * 1024)
  · rename_i diffIn diffOut he
    rw [he] at hlabel
    split at hp
    · rw [List.mem_singleton.1 hp]
      exact add_nonneg hlabel.1 hlabel.2
    · simp at hp
  · simp at hp

/-- A point of the window is part of its sum. -/
theorem data_le_windowSum {now : Int} (hnonneg : ∀ p ∈ recorded past, 0 ≤ p.data) {p : Datapoint}
    (hp : p ∈ recorded past) (htime : now - 60 * 1000 < p.timestamp) :
    p.data ≤ windowSum past now := by
  apply List.single_le_sum
  · intro d hd
    obtain ⟨q, hq, rfl⟩ := List.mem_map.1 hd
    exact hnonneg q (List.mem_filter.1 hq).1
  · exact List.mem_map_of_mem (List.mem_filter.2 ⟨hp, by simpa using htime⟩)

/-- **The traffic window is exact.** In a run with non-negative byte differences, an update that
finds the screen pending disconnects it if and only if the 64-bit sum of the data recorded in the
last 60 seconds is below the limit. While that sum does not overflow it is the sum itself, and the
screen stays pending for 60 seconds after it was turned off. The loop over the list never finds it
empty. -/
theorem trafficWindow_exact {clock : Int} {ls : List Timed}
    (hbytes : ∀ l ∈ ls, NonnegBytes l.event) {past rest : List DeviceRecord} {x : DeviceRecord}
    (hist : step.history (new clock) ls = past ++ x :: rest) {diffIn diffOut : Int}
    (he : x.label.event = .updateByteCount diffIn diffOut)
    (hs : x.pre.receiver.screen = .pendingDisconnect) :
    (x.post.receiver.screen = .disconnected ↔
        wrap64 (windowSum (past ++ [x]) x.label.now) < 64 * 1024) ∧
      (windowSum (past ++ [x]) x.label.now < 2 ^ 63 →
        (x.post.receiver.screen = .disconnected ↔
          windowSum (past ++ [x]) x.label.now < 64 * 1024) ∧
        ∀ y ∈ past, y.label.event = .screenOff true →
          y.post.receiver.screen = .pendingDisconnect → x.label.now < y.label.now + 60 * 1000 →
          x.post.receiver.screen ≠ .disconnected) ∧
      dropOld x.label.now
          (x.pre.receiver.trafficdata ++ [⟨x.label.now, wrap64 (diffIn + diffOut)⟩]) =
        some x.post.receiver.trafficdata := by
  obtain ⟨hx, hpre, p, -, hpast⟩ := Machine.history_split hist
  have hinv : WindowInv (new clock) past := by
    rw [← hpast]
    exact Machine.past_inv (C := fun _ => True) (windowInv_nil clock)
      (fun _ _ hx hpre hpast _ => hpast.concat hx hpre) (fun _ _ => trivial)
  have hexact := update_sums_window hx hpre hinv he hs
  have hnonneg : ∀ q ∈ recorded (past ++ [x]), 0 ≤ q.data := by
    intro q hq
    apply @data_nonneg (new clock) ls hbytes
    rw [hist, ← List.singleton_append, ← List.append_assoc, recorded, List.flatMap_append]
    exact List.mem_append_left _ hq
  refine ⟨hexact, ?_, ?_⟩
  · intro hlong
    have hsum : 0 ≤ windowSum (past ++ [x]) x.label.now := by
      apply List.sum_nonneg
      intro d hd
      obtain ⟨q, hq, rfl⟩ := List.mem_map.1 hd
      exact hnonneg q (List.mem_filter.1 hq).1
    rw [wrap64_eq_self (by omega) hlong] at hexact
    refine ⟨hexact, ?_⟩
    intro y hy hoff _ hsoon hdisc
    -- the point that the screen-off recorded is still in the window
    have hmem : (⟨y.label.now, 64 * 1024⟩ : Datapoint) ∈ recorded (past ++ [x]) := by
      rw [recorded, List.mem_flatMap]
      exact ⟨y, List.mem_append_left _ hy, by simp [recordedBy, hoff]⟩
    have hle := @data_le_windowSum _ x.label.now hnonneg _ hmem (by dsimp only; omega)
    have hlt := hexact.1 hdisc
    dsimp only at hle
    omega
  · have hreceive : x.post.receiver =
        (x.pre.receiver.updateByteCount x.label.now diffIn diffOut).1 := by
      rw [(takes_iff.1 hx).2.2.1, he]
      rfl
    rw [hreceive, (x.pre.receiver.updateByteCount_pending x.label.now hs diffIn diffOut).1]
    apply dropOld_concat
    simp [trafficWindow]

/-- The network is up, the screen is turned off, and a minute later an update pauses the VPN. -/
theorem trafficWindow_exact_minute :
    ∃ x ∈ step.history (new 0) [⟨.networkStateChange true (some ⟨1, some "home", true⟩), 0⟩,
        ⟨.screenOff true, 0⟩, ⟨.updateByteCount 100 200, 60000⟩],
      x.label.event = .updateByteCount 100 200 ∧ x.pre.receiver.screen = .pendingDisconnect ∧
        x.post.receiver.screen = .disconnected := by
  let ls : List Timed := [⟨.networkStateChange true (some ⟨1, some "home", true⟩), 0⟩,
    ⟨.screenOff true, 0⟩, ⟨.updateByteCount 100 200, 60000⟩]
  have hist : step.history (new 0) ls =
      (step.history (new 0) ls).take 2 ++ [(step.history (new 0) ls).getLast (by decide)] := by
    decide
  refine ⟨_, List.getLast_mem (by decide), by decide, by decide, ?_⟩
  apply (@trafficWindow_exact 0 ls (by simp [ls, NonnegBytes]) _ _ _ hist 100 200 (by decide)
    (by decide)).1.2
  decide

/-- **A sum that overflows.** Two updates of 2 ^ 62 bytes each make the window's sum negative, and
the VPN pauses two seconds after the screen was turned off. -/
theorem trafficWindow_counterexample :
    ∃ (ls : List Timed) (past : List DeviceRecord) (x : DeviceRecord),
      (∀ l ∈ ls, NonnegBytes l.event) ∧ step.history (new 0) ls = past ++ [x] ∧
      x.label.event = .updateByteCount (2 ^ 62) 0 ∧
      x.pre.receiver.screen = .pendingDisconnect ∧ x.post.receiver.screen = .disconnected ∧
      ¬ windowSum (past ++ [x]) x.label.now < 64 * 1024 ∧
      ∃ y ∈ past, y.label.event = .screenOff true ∧
        y.post.receiver.screen = .pendingDisconnect ∧ x.label.now < y.label.now + 60 * 1000 := by
  let wifi : NetworkInfo := ⟨1, some "home", true⟩
  let ls : List Timed := [⟨.networkStateChange true (some wifi), 0⟩, ⟨.screenOff true, 0⟩,
    ⟨.updateByteCount (2 ^ 62) 0, 1000⟩, ⟨.updateByteCount (2 ^ 62) 0, 2000⟩]
  refine ⟨ls, (step.history (new 0) ls).dropLast, (step.history (new 0) ls).getLast (by decide),
    by simp [ls, NonnegBytes], (List.dropLast_concat_getLast _).symm, by decide, by decide,
    by decide, by decide, ?_⟩
  exact ⟨((step.history (new 0) ls).get ⟨1, by decide⟩), by decide, by decide, by decide, by decide⟩

end Device

end PortVpn.Management
