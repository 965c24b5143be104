import PortVpn.Lib.Machine
import PortVpn.Management.DeviceStateReceiver

/-!
# The timer of a free session

`MainActivity` asks `SendDataService` for a timer before it starts a free session, and `d_now` stops
whatever session is up when a timer runs out. No timer is ever taken back, none knows the session it
was meant for, and its delay is computed in `int` arithmetic or is left over from an earlier call.
`full_time_iff` says which steps of a run make it possible that a free session is stopped early.
-/

set_option autoImplicit false

namespace PortVpn.App

open PortVpn.Lib PortVpn.Management

/-- The intent of `start_free_service`, with its extra `time` in minutes. -/
structure Intent where
  time : Option Int
  deriving DecidableEq, Repr

/-- `intent.getIntExtra("time", 2)`. -/
def Intent.getIntExtra (intent : Intent) : Int := intent.time.getD 2

/-- `time * 60 * 1000`, the delay in milliseconds as the service computes it. -/
def delayOf (time : Int) : Int := wrap32 (wrap32 (time * 60) * 1000)

/-- A call of `start_free_service`: when it was made, and the minutes it was made for. -/
structure FreeCall where
  startedAt : Int
  freeTime : Int
  deriving DecidableEq, Repr

/-- The time up to which the session of a call may not be stopped. -/
def FreeCall.ends (call : FreeCall) : Int := call.startedAt + call.freeTime * 60000

/-- The session behind `mService.getManagement()`: one that a call of `start_free_service` asked
for, or another one. -/
inductive VpnSession where
  | free (call : FreeCall)
  | other
  deriving DecidableEq, Repr

/-- What happens to the service, to the session and to the process. -/
inductive SendDataAction where
  | onServiceConnected
  | onServiceDisconnected
  | onStartCommand (intent : Option Intent)
  | startVpnNowNow (told : Bool)
  | disconnect
  | run (due : Int)
  | processKilled
  deriving DecidableEq, Repr

/-- An action, and the clock reading at which it happens. -/
structure SendDataEvent where
  now : Int
  action : SendDataAction
  deriving DecidableEq, Repr

/-- What `d_now` calls. -/
inductive SendDataCall where
  | setConntectedVpnProfileDisconnected
  | stopVPN (session : VpnSession)
  deriving DecidableEq, Repr

/-- `SendDataService`, with the session that is up, the call of `start_free_service` that still
waits for `start_vpn_now_now`, and the clock. -/
structure SendDataService where
  tTime : Int := 0
  handler : Handler := {}
  mService : Bool := false
  management : Option VpnSession := none
  told : Option FreeCall := none
  clock : Int := 0
  deriving DecidableEq, Repr

namespace SendDataService

/-- The value that `onStartCommand` leaves in `t_time`. A null intent throws before the
assignment. -/
def nextTime (s : SendDataService) (intent : Option Intent) : Int :=
  match intent with
  | none => s.tTime
  | some intent => delayOf intent.getIntExtra

/-- `onStartCommand`. A negative delay counts as none. -/
def onStartCommand (s : SendDataService) (intent : Option Intent) (now : Int) : SendDataService :=
  { s with
    tTime := s.nextTime intent
    handler := s.handler.postDelayed now (max 0 (s.nextTime intent))
    told :=
      match intent with
      | none => s.told
      | some intent => some ⟨now, intent.getIntExtra⟩ }

/-- `start_vpn_now_now`, behind a call of `start_free_service` or without one. -/
def startVpnNowNow (s : SendDataService) (told : Bool) : Option SendDataService :=
  match told, s.told with
  | true, some call => some { s with management := some (.free call), told := none }
  | true, none => none
  | false, _ => some { s with management := some .other }

/-- `d_now`. -/
def dNow (s : SendDataService) : SendDataService × List SendDataCall :=
  match s.mService, s.management with
  | true, some session =>
      ({ s with management := none }, [.setConntectedVpnProfileDisconnected, .stopVPN session])
  | _, _ => (s, [.setConntectedVpnProfileDisconnected])

/-- What an action does at a clock reading. -/
def handle (s : SendDataService) (now : Int) :
    SendDataAction → Option (SendDataService × List SendDataCall)
  | .onServiceConnected => some ({ s with mService := true }, [])
  | .onServiceDisconnected => some ({ s with mService := false }, [])
  | .onStartCommand intent => some (s.onStartCommand intent now, [])
  | .startVpnNowNow told => (s.startVpnNowNow told).map fun t => (t, [])
  | .disconnect => some ({ s with management := none }, [])
  | .run due =>
      if due ∈ s.handler.pending ∧ due ≤ now then
        some ({ s with handler := s.handler.fire due }.dNow)
      else none
  -- The timers, the fields and the session all live in the one process of the application.
  | .processKilled => some ({}, [])

/-- One event. The clock does not go back. -/
def step : Machine SendDataService SendDataEvent SendDataCall := fun s e =>
  if s.clock ≤ e.now then
    (s.handle e.now e.action).map fun r => ({ r.1 with clock := e.now }, r.2)
  else none

end SendDataService

/-- The property of a step: a free session that `d_now` stops has had its time. -/
def FullTime (x : Step SendDataService SendDataEvent SendDataCall) : Prop :=
  ∀ call, .stopVPN (.free call) ∈ x.out → call.ends ≤ x.label.now

/-- The condition on a step. A timer is started during a free session only if it does not run out
before the session's time is over, and a free session is started only if no timer is waiting that
does. -/
def OnTime (x : Step SendDataService SendDataEvent SendDataCall) : Prop :=
  match x.label.action with
  | .onStartCommand intent =>
      ∀ call, x.pre.management = some (.free call) →
        call.ends ≤ x.label.now + max 0 (x.pre.nextTime intent)
  | .startVpnNowNow true =>
      ∀ call, x.pre.told = some call →
        ∀ due ∈ x.pre.handler.pending, call.ends ≤ max x.label.now due
  | _ => True

/-- An action that only lets a waiting timer do its work. -/
def SendDataAction.Delivers : SendDataAction → Prop
  | .onServiceConnected => True
  | .run _ => True
  | _ => False

namespace SendDataService

/-! ## One step -/

/-- The delay is the one that was asked for only below 35792 minutes. -/
theorem delayOf_eq {time : Int} (h₀ : 0 ≤ time) (h : time ≤ 35791) :
    delayOf time = time * 60000 := by
  have hin : wrap32 (time * 60) = time * 60 := by
    apply wrap32_eq_self <;> omega
  have hout : wrap32 (time * 60 * 1000) = time * 60 * 1000 := by
    apply wrap32_eq_self <;> omega
  rw [delayOf, hin, hout]
  omega

/-- From 35792 minutes on the delay is shorter than the time that was asked for. -/
theorem delayOf_lt {time : Int} (h : 35792 ≤ time) : max 0 (delayOf time) < time * 60000 := by
  have hlt : ∀ x, wrap32 x < 2 ^ 31 := by
    intro x
    have := Int.bmod_lt (x := x) (m := 2 ^ 32) (by decide)
    rw [wrap32]
    omega
  have := hlt (wrap32 (time * 60) * 1000)
  rw [delayOf]
  omega

/-- A step is a step of its action, at a clock reading that is not before the last one. -/
theorem step_cases {x : Step SendDataService SendDataEvent SendDataCall} (hx : step.Takes x) :
    x.pre.clock ≤ x.label.now ∧ ∃ t, x.pre.handle x.label.now x.label.action = some (t, x.out) ∧
      x.post = { t with clock := x.label.now } := by
  have h : step x.pre x.label = some (x.post, x.out) := hx
  rw [step] at h
  by_cases hclock : x.pre.clock ≤ x.label.now
  · rw [if_pos hclock] at h
    obtain ⟨⟨t, out⟩, ht, heq⟩ := Option.map_eq_some_iff.1 h
    obtain ⟨hpost, hout⟩ := Prod.mk.inj heq
    subst hout
    exact ⟨hclock, t, ht, hpost.symm⟩
  · rw [if_neg hclock] at h
    cases h

/-- `d_now` leaves the timers alone, and the only session it leaves is one that was up before. -/
theorem dNow_facts (s : SendDataService) :
    s.dNow.1.handler = s.handler ∧ (∀ session, s.dNow.1.management = some session →
      s.management = some session) ∧
      ∀ session, .stopVPN session ∈ s.dNow.2 → s.management = some session := by
  rcases s with ⟨tTime, handler, mService, management, told, clock⟩
  cases mService with
  | false => exact ⟨rfl, fun _ h => h, fun _ h => by simp [dNow] at h⟩
  | true =>
      cases management with
      | none => exact ⟨rfl, fun _ h => h, fun _ h => by simp [dNow] at h⟩
      | some up =>
          refine ⟨rfl, ?_, ?_⟩
          · intro session h
            cases h
          · intro session h
            simp only [dNow, List.mem_cons, reduceCtorEq, SendDataCall.stopVPN.injEq,
              List.not_mem_nil, or_false, false_or] at h
            rw [h]

/-- The invariant: while a free session is up, no timer that waits can end it early. -/
def Safe (s : SendDataService) : Prop :=
  ∀ call, s.management = some (.free call) →
    ∀ due ∈ s.handler.pending, call.ends ≤ max s.clock due

/-- The invariant holds on without a change of the session when time goes on and timers go. -/
theorem Safe.mono {s t : SendDataService} (h : s.Safe) (hclock : s.clock ≤ t.clock)
    (hsession : ∀ session, t.management = some session → s.management = some session)
    (hpending : ∀ due ∈ t.handler.pending, due ∈ s.handler.pending) : t.Safe := by
  intro call hcall due hdue
  have hend := h call (hsession _ hcall) due (hpending due hdue)
  omega

/-- A step that meets the condition keeps the invariant. -/
theorem safe_step {x : Step SendDataService SendDataEvent SendDataCall} (hx : step.Takes x)
    (hs : x.pre.Safe) (hon : OnTime x) : x.post.Safe := by
  obtain ⟨hclock, t, ht, hpost⟩ := step_cases hx
  rcases x with ⟨s, ⟨now, action⟩, post, out⟩
  dsimp only at hclock ht hpost hs
  subst hpost
  cases action with
  | onServiceConnected =>
      cases ht
      exact hs.mono hclock (fun _ h => h) (fun _ h => h)
  | onServiceDisconnected =>
      cases ht
      exact hs.mono hclock (fun _ h => h) (fun _ h => h)
  | onStartCommand intent =>
      cases ht
      intro call hcall due hdue
      -- A timer that was waiting is under the invariant, the new one under the condition.
      rcases List.mem_append.1 hdue with hold | hnew
      · have hend := hs call hcall due hold
        show call.ends ≤ max now due
        omega
      · have hend := hon call hcall
        dsimp only at hend
        rw [List.mem_singleton] at hnew
        show call.ends ≤ max now due
        omega
  | startVpnNowNow told =>
      obtain ⟨t', ht', heq⟩ := Option.map_eq_some_iff.1 ht
      cases heq
      cases told with
      | false =>
          cases ht'
          intro call hcall
          cases hcall
      | true =>
          cases hcalled : s.told with
          | none => simp [startVpnNowNow, hcalled] at ht'
          | some called =>
              simp only [startVpnNowNow, hcalled, Option.some.injEq] at ht'
              subst ht'
              intro call hcall due hdue
              cases hcall
              exact hon called hcalled due hdue
  | disconnect =>
      cases ht
      intro call hcall
      cases hcall
  | run due =>
      rw [handle] at ht
      split at ht
      · obtain ⟨hhandler, hsession, -⟩ := dNow_facts { s with handler := s.handler.fire due }
        have ht' : ({ s with handler := s.handler.fire due } : SendDataService).dNow.1 = t :=
          congrArg Prod.fst (Option.some.inj ht)
        rw [ht'] at hhandler hsession
        refine Safe.mono (t := { t with clock := now }) hs hclock hsession ?_
        intro due' h
        have h' : due' ∈ t.handler.pending := h
        rw [hhandler] at h'
        exact List.mem_of_mem_erase h'
      · cases ht
  | processKilled =>
      cases ht
      intro call hcall
      cases hcall

/-- Under the invariant no step stops a free session early. -/
theorem fullTime_step {x : Step SendDataService SendDataEvent SendDataCall} (hx : step.Takes x)
    (hs : x.pre.Safe) : FullTime x := by
  obtain ⟨hclock, t, ht, -⟩ := step_cases hx
  rcases x with ⟨s, ⟨now, action⟩, post, out⟩
  dsimp only at hclock ht hs
  intro call hcall
  cases action with
  | run due =>
      rw [handle] at ht
      split at ht
      · rename_i hdue
        obtain ⟨-, -, hstop⟩ := dNow_facts { s with handler := s.handler.fire due }
        have hout : ({ s with handler := s.handler.fire due } : SendDataService).dNow.2 = out :=
          congrArg Prod.snd (Option.some.inj ht)
        rw [hout] at hstop
        have hend := hs call (hstop _ hcall) due hdue.1
        have hnow := hdue.2
        show call.ends ≤ now
        omega
      · cases ht
  | startVpnNowNow told =>
      obtain ⟨t', -, heq⟩ := Option.map_eq_some_iff.1 ht
      cases heq
      cases hcall
  | onServiceConnected => cases ht; cases hcall
  | onServiceDisconnected => cases ht; cases hcall
  | onStartCommand intent => cases ht; cases hcall
  | disconnect => cases ht; cases hcall
  | processKilled => cases ht; cases hcall

/-! ## Runs -/

/-- The service as the process starts it. -/
def created : SendDataService := {}

theorem created_safe : created.Safe := by
  intro call hcall
  cases hcall

/-- Where a timer waits that runs out before the session's time is over, two more events stop the
session early. -/
theorem exists_early_stop {s : SendDataService} (call : FreeCall) (due : Int)
    (hup : s.management = some (.free call)) (hdue : due ∈ s.handler.pending)
    (hearly : max s.clock due < call.ends) :
    ∃ x ∈ step.history s [⟨s.clock, .onServiceConnected⟩, ⟨max s.clock due, .run due⟩],
      ¬ FullTime x := by
  have hbind : step s ⟨s.clock, .onServiceConnected⟩ = some ({ s with mService := true }, []) := by
    rw [step, if_pos (le_refl _)]
    rfl
  have hrun : step { s with mService := true } ⟨max s.clock due, .run due⟩ =
      some ({ s with
        mService := true, management := none, handler := s.handler.fire due,
        clock := max s.clock due },
        [.setConntectedVpnProfileDisconnected, .stopVPN (.free call)]) := by
    have hnow : due ∈ s.handler.pending ∧ due ≤ max s.clock due := ⟨hdue, le_max_right _ _⟩
    rw [step, if_pos (le_max_left _ _)]
    simp only [handle, if_pos hnow, dNow, hup]
    rfl
  rw [Machine.history_cons_of_some hbind, Machine.history_cons_of_some hrun]
  refine ⟨_, List.mem_cons_of_mem _ List.mem_cons_self, ?_⟩
  intro hfull
  have hend := hfull call (List.mem_cons_of_mem _ List.mem_cons_self)
  dsimp only at hend
  omega

/-- Behind a step that fails the condition, events that only deliver a waiting timer stop a free
session early. -/
theorem exists_early_stop_of_not_onTime {x : Step SendDataService SendDataEvent SendDataCall}
    (hx : step.Takes x) (hon : ¬ OnTime x) :
    ∃ ds : List SendDataEvent, (∀ e ∈ ds, e.action.Delivers) ∧
      ∃ y ∈ step.history x.post ds, ¬ FullTime y := by
  have hdeliver : ∀ now now' due : Int, ∀ e ∈ [(⟨now, .onServiceConnected⟩ : SendDataEvent),
      ⟨now', .run due⟩], e.action.Delivers := by
    intro now now' due e he
    simp only [List.mem_cons, List.not_mem_nil, or_false] at he
    rcases he with rfl | rfl <;> trivial
  obtain ⟨hclock, t, ht, hpost⟩ := step_cases hx
  rcases x with ⟨s, ⟨now, action⟩, post, out⟩
  dsimp only at hclock ht hpost
  subst hpost
  cases action with
  | onStartCommand intent =>
      cases ht
      simp only [OnTime, not_forall, not_le] at hon
      obtain ⟨call, hup, hearly⟩ := hon
      refine ⟨_, hdeliver _ _ _, exists_early_stop call
        (now + max 0 (s.nextTime intent)) hup ?_ ?_⟩
      · exact List.mem_append_right _ List.mem_cons_self
      · show max now (now + max 0 (s.nextTime intent)) < call.ends
        omega
  | startVpnNowNow told =>
      cases told with
      | false => exact absurd trivial hon
      | true =>
          simp only [OnTime, not_forall, not_le] at hon
          obtain ⟨call, hcalled, due, hdue, hearly⟩ := hon
          simp only [handle, startVpnNowNow, hcalled, Option.map_some, Option.some.injEq,
            Prod.mk.injEq] at ht
          obtain ⟨rfl, rfl⟩ := ht
          exact ⟨_, hdeliver _ _ _, exists_early_stop call due rfl hdue hearly⟩
  | onServiceConnected => exact absurd trivial hon
  | onServiceDisconnected => exact absurd trivial hon
  | disconnect => exact absurd trivial hon
  | run due => exact absurd trivial hon
  | processKilled => exact absurd trivial hon

/-- An event that only delivers a waiting timer meets the condition. -/
theorem onTime_of_delivers {x : Step SendDataService SendDataEvent SendDataCall}
    (h : x.label.action.Delivers) : OnTime x := by
  rcases x with ⟨pre, ⟨now, action⟩, post, out⟩
  cases action <;> trivial

/-- **A free session gets its full time exactly where timers and sessions are started on time.** All
steps of a run meet the condition if and only if at no point of the run the waiting timers can stop
a free session before its time is over. -/
theorem full_time_iff (es : List SendDataEvent) :
    (∀ x ∈ step.history created es, OnTime x) ↔
      ∀ p, p <+: es → ∀ ds : List SendDataEvent, (∀ e ∈ ds, e.action.Delivers) →
        ∀ x ∈ step.history created (p ++ ds), FullTime x := by
  constructor
  · intro hon p hp ds hds x hx
    have hall : ∀ y ∈ step.history created (p ++ ds), OnTime y := by
      intro y hy
      rcases Machine.mem_history_append hy with h | h
      · exact hon y (Machine.mem_history_mono hp h)
      · exact onTime_of_delivers (hds _ h)
    have hsafe := Machine.history_inv (fun y hy hs hc => safe_step hy hs hc) created_safe hall x hx
    exact fullTime_step (Machine.takes_of_mem_history hx) hsafe.1
  · intro hfull x hx
    by_contra hon
    obtain ⟨ds, hds, y, hy, hnot⟩ :=
      exists_early_stop_of_not_onTime (Machine.takes_of_mem_history hx) hon
    obtain ⟨p, hp, hafter⟩ := Machine.exists_history_after hx
    exact hnot (hfull p hp ds hds y (hafter ds y hy))

/-- The timer of a session of ten minutes that was disconnected stops the next session of ten
minutes after five. -/
theorem full_time_counterexample :
    ¬ ∀ es, ∀ x ∈ step.history created es, FullTime x := by
  intro h
  have hlast := h [⟨0, .onServiceConnected⟩, ⟨0, .onStartCommand (some ⟨some 10⟩)⟩,
    ⟨0, .startVpnNowNow true⟩, ⟨240000, .disconnect⟩,
    ⟨300000, .onStartCommand (some ⟨some 10⟩)⟩, ⟨300000, .startVpnNowNow true⟩,
    ⟨600000, .run 600000⟩]
  have hstop := hlast ⟨⟨600000, ⟨[600000, 900000]⟩, true, some (.free ⟨300000, 10⟩), none, 300000⟩,
    ⟨600000, .run 600000⟩, ⟨600000, ⟨[900000]⟩, true, none, none, 600000⟩,
    [.setConntectedVpnProfileDisconnected, .stopVPN (.free ⟨300000, 10⟩)]⟩
  have hend := hstop (List.mem_of_getLast? (by rfl)) ⟨300000, 10⟩ (by decide)
  revert hend
  decide

end SendDataService

end PortVpn.App
