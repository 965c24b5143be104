import PortVpn.Management.ProcessCommand
import PortVpn.Service.PushFailure
import PortVpn.Service.TunFailure

/-!
# Malformed lines

A line is contained if the method does not throw, and if a malformed line leaves the configuration,
the hold and the status as they are. `processCommand_contained_iff` says which lines are not
contained in which state: most handlers index, parse and call before they have checked. It is about
the states that lines lead to, where the queues of `openTun` come to an end. What counts as the text
of an address is left open.
-/

set_option autoImplicit false

namespace PortVpn.Management

open PortVpn.Lib PortVpn.Net PortVpn.Service

/-! ## The statement -/

/-- The configuration, the hold and the status of two sessions are the same. -/
structure Kept (s t : Session) : Prop where
  tun : SameConfig s.tun t.tun
  mWaitingForRelease : t.thread.mWaitingForRelease = s.thread.mWaitingForRelease
  status : t.status = s.status

theorem Kept.refl (s : Session) : Kept s s := ⟨SameConfig.refl s.tun, rfl, rfl⟩

/-- A request carries the fields that it needs. -/
def Session.Need.WellFormed (isAddress : Text → Prop) : Session.Need → Prop
  | .push p => p.WellFormed isAddress
  | .protectFd | .persistTunAction | .openTun _ => True

/-- A line is a message of its kind: its fields and quotes are there, its numbers are numbers and
its addresses addresses. -/
def Session.Line.WellFormed (isAddress : Text → Prop) : Session.Line → Prop
  | .info | .success | .protectFd | .rsaSign _ => True
  | .password argument => (Session.quoted argument).isSome
  | .hold argument => ((split (· == ':') argument)[1]?.bind parseInt).isSome
  | .needOk argument =>
      ∃ r ∈ Session.request argument, ∃ need ∈ Session.needOf r.1 r.2, need.WellFormed isAddress
  | .bytecount argument =>
      match Session.splitLimit ',' 1 argument with
      | received :: sent :: _ => (parseLong received).isSome ∧ (parseLong sent).isSome
      | _ => False
  | .state argument =>
      match Session.splitLimit ',' 2 argument with
      | time :: _ :: _ :: _ => (parseLong time).isSome
      | _ => False
  | .proxy argument => (Session.splitLimit ',' 2 argument).length = 3
  | .log argument =>
      match Session.splitLimit ',' 3 argument with
      | [time, _, ovpnlevel, _] => (parseLong time).isSome ∧ (parseInt ovpnlevel).isSome
      | _ => False
  | .unrecognized => False

/-- The call does not throw, and keeps the session if the line is malformed. -/
def Contained (s : Session) (wellFormed : Prop) (p : Processed) : Prop :=
  p.thrown = false ∧ (¬ wellFormed → Kept s p.state)

/-- The same surroundings, with a number of rounds for each of the queues of `openTun`. -/
def Surroundings.polling (env : Surroundings) (order orderv6 : Nat → Nat)
    (rounds roundsv6 : Nat) : Surroundings :=
  { env with openEnv := env.openEnv.polling order orderv6 rounds roundsv6 }

/-! ## When a line fails -/

namespace Session

/-- A state is not the reported one already, and is not ignored. -/
def StateChanges (status : VpnStatus) (currentstate msg : Text) : Prop :=
  status.ignores currentstate = false ∧
    ¬ (status.mLaststate = currentstate ∧
      status.mLaststatemsg = (if msg = ",,".toList then [] else msg) ∧
        status.mLastStateresid = VpnStatus.getLocalizedState currentstate ∧
          status.mLastLevel = VpnStatus.getLevel currentstate)

/-- A request throws, or is malformed and changes the configuration. -/
def NeedFails (env : Surroundings) (isAddress : Text → Prop) (s : Session) : Need → Prop
  | .push p => s.tun.PushFails env.cfg isAddress p
  | .openTun extra => extra = "tun".toList ∧ ¬ s.tun.Survives env.cfg env.openEnv
  | .protectFd | .persistTunAction => False

/-- A line throws, or is malformed and changes something. -/
def LineFails (env : Surroundings) (isAddress : Text → Prop) (s : Session) : Line → Prop
  | .hold argument => (split (· == ':') argument)[1]?.bind parseInt = none
  | .needOk argument =>
      argument ≠ [] ∧
        match request argument with
        | none => True
        | some (needed, extra) =>
            match needOf needed extra with
            | none => False
            | some need => s.NeedFails env isAddress need
  | .bytecount argument =>
      match splitLimit ',' 1 argument with
      | received :: sent :: _ => parseLong received = none ∨ parseLong sent = none
      | _ => True
  | .state argument =>
      s.mShuttingDown = false ∧
        match splitLimit ',' 2 argument with
        | time :: currentstate :: msg :: _ =>
            parseLong time = none ∧ StateChanges s.status currentstate msg
        | _ => True
  | .log argument =>
      match splitLimit ',' 3 argument with
      | [_, _, ovpnlevel, _] => parseInt ovpnlevel = none
      | _ => True
  | .rsaSign argument => env.getSignedData argument = .thrown
  | .info | .password _ | .proxy _ | .success | .protectFd | .unrecognized => False

/-! ## Each kind of line -/

variable {env : Surroundings} {isAddress : Text → Prop} {s : Session} {wellFormed : Prop}

@[simp] theorem managmentCommands_state (s : Session) (cmds : List Text) :
    (s.managmentCommands cmds).state = s := rfl

@[simp] theorem managmentCommands_thrown (s : Session) (cmds : List Text) :
    (s.managmentCommands cmds).thrown = false := rfl

/-- A call that throws is not contained. -/
theorem not_contained_of_thrown {p : Processed} (h : p.thrown = true) :
    ¬ Contained s wellFormed p :=
  fun hc => absurd (h.symm.trans hc.1) (by simp)

theorem contained_of_kept {p : Processed} (h : p.thrown = false) (hk : Kept s p.state) :
    Contained s wellFormed p := ⟨h, fun _ => hk⟩

theorem contained_of_wellFormed {p : Processed} (h : p.thrown = false) (hwf : wellFormed) :
    Contained s wellFormed p := ⟨h, fun hn => absurd hwf hn⟩

theorem processPWCommand_contained (argument : Text) :
    Contained s ((quoted argument).isSome) (s.processPWCommand argument) := by
  rw [processPWCommand]
  cases quoted argument with
  | none => exact contained_of_kept rfl (Kept.refl s)
  | some r =>
      refine contained_of_wellFormed ?_ rfl
      dsimp only
      split
      · rfl
      · split
        · rfl
        · split
          · rfl
          · rfl

/-- The status is kept exactly if the state does not change it. -/
theorem updateStateString_eq_self_iff (status : VpnStatus) (currentstate msg : Text) :
    status.updateStateString currentstate (if msg = ",,".toList then [] else msg) = status ↔
      ¬ StateChanges status currentstate msg := by
  rw [VpnStatus.updateStateString, VpnStatus.updateStateStringWith, StateChanges]
  generalize (if msg = ",,".toList then [] else msg) = text
  cases status.ignores currentstate with
  | true => simp
  | false =>
      obtain ⟨laststate, lastmsg, resid, level, bytes⟩ := status
      simp only [Bool.false_eq_true, if_false, VpnStatus.mk.injEq, and_true, true_and, not_not]
      constructor
      · rintro ⟨rfl, rfl, rfl, rfl⟩
        exact ⟨rfl, rfl, rfl, rfl⟩
      · rintro ⟨rfl, rfl, hresid, hlevel⟩
        exact ⟨rfl, rfl, hresid.symm, hlevel.symm⟩

theorem processState_contained_iff (argument : Text) :
    Contained s (Line.WellFormed isAddress (.state argument)) (s.processState argument) ↔
      ¬ s.LineFails env isAddress (.state argument) := by
  rw [processState, Line.WellFormed, LineFails]
  cases s.mShuttingDown with
  | true => exact iff_of_true (contained_of_kept rfl (Kept.refl s)) (by simp)
  | false =>
      simp only [Bool.false_eq_true, if_false, true_and]
      rcases splitLimit ',' 2 argument with _ | ⟨time, _ | ⟨currentstate, _ | ⟨msg, rest⟩⟩⟩
      · exact iff_of_false (not_contained_of_thrown rfl) (not_not.2 trivial)
      · exact iff_of_false (not_contained_of_thrown rfl) (not_not.2 trivial)
      · exact iff_of_false (not_contained_of_thrown rfl) (not_not.2 trivial)
      · dsimp only
        cases parseLong time with
        | some n => exact iff_of_true (contained_of_wellFormed rfl rfl) (by simp)
        | none =>
            rw [not_and, ← updateStateString_eq_self_iff]
            constructor
            · rintro ⟨-, hkept⟩ -
              exact (hkept (by simp)).status
            · intro h
              exact contained_of_kept rfl ⟨SameConfig.refl s.tun, rfl, h rfl⟩

theorem processByteCount_contained_iff (argument : Text) :
    Contained s (Line.WellFormed isAddress (.bytecount argument))
        (s.processByteCount argument) ↔
      ¬ s.LineFails env isAddress (.bytecount argument) := by
  unfold processByteCount Line.WellFormed LineFails
  dsimp only
  rcases splitLimit ',' 1 argument with _ | ⟨received, _ | ⟨sent, rest⟩⟩
  · exact iff_of_false (not_contained_of_thrown rfl) (not_not.2 trivial)
  · exact iff_of_false (not_contained_of_thrown rfl) (not_not.2 trivial)
  · dsimp only
    cases parseLong received with
    | none => exact iff_of_false (not_contained_of_thrown rfl) (by simp)
    | some received =>
        cases parseLong sent with
        | none => exact iff_of_false (not_contained_of_thrown rfl) (by simp)
        | some sent => exact iff_of_true (contained_of_wellFormed rfl ⟨rfl, rfl⟩) (by simp)

theorem processLogMessage_contained_iff (argument : Text) :
    Contained s (Line.WellFormed isAddress (.log argument)) (s.processLogMessage argument) ↔
      ¬ s.LineFails env isAddress (.log argument) := by
  unfold processLogMessage Line.WellFormed LineFails
  dsimp only
  rcases splitLimit ',' 3 argument with
    _ | ⟨time, _ | ⟨flags, _ | ⟨ovpnlevel, _ | ⟨msg, _ | ⟨more, rest⟩⟩⟩⟩⟩
  · exact iff_of_false (not_contained_of_thrown rfl) (not_not.2 trivial)
  · exact iff_of_false (not_contained_of_thrown rfl) (not_not.2 trivial)
  · exact iff_of_false (not_contained_of_thrown rfl) (not_not.2 trivial)
  · exact iff_of_false (not_contained_of_thrown rfl) (not_not.2 trivial)
  · dsimp only
    cases parseInt ovpnlevel with
    | none => exact iff_of_false (not_contained_of_thrown rfl) (by simp)
    | some level => exact iff_of_true (contained_of_kept rfl (Kept.refl s)) (by simp)
  · exact iff_of_false (not_contained_of_thrown rfl) (not_not.2 trivial)

theorem handleHold_contained_iff (argument : Text) :
    Contained s (Line.WellFormed isAddress (.hold argument)) (s.handleHold env argument) ↔
      ¬ s.LineFails env isAddress (.hold argument) := by
  rw [handleHold, Line.WellFormed, LineFails]
  dsimp only
  cases (split (· == ':') argument)[1]?.bind parseInt with
  | none => exact iff_of_false (not_contained_of_thrown rfl) (by simp)
  | some waittime => exact iff_of_true (contained_of_wellFormed rfl rfl) (by simp)

theorem processSignCommand_contained_iff (argument : Text) :
    Contained s (Line.WellFormed isAddress (.rsaSign argument))
        (s.processSignCommand env argument) ↔
      ¬ s.LineFails env isAddress (.rsaSign argument) := by
  rw [processSignCommand, LineFails]
  dsimp only
  cases env.getSignedData argument with
  | thrown => exact iff_of_false (not_contained_of_thrown rfl) (by simp)
  | signature signed => exact iff_of_true (contained_of_wellFormed rfl trivial) (by simp)
  | null => exact iff_of_true (contained_of_wellFormed rfl trivial) (by simp)

theorem processProxyCMD_contained (argument : Text) :
    Contained s wellFormed (s.processProxyCMD env argument) := by
  unfold processProxyCMD
  dsimp only
  split
  · exact contained_of_kept rfl (Kept.refl s)
  · exact contained_of_kept rfl (Kept.refl s)

/-! ## Requests -/

/-- The device is opened or the request is cancelled, unless `openTun` throws. -/
theorem sendTunFD_contained_iff {needed extra : Text} {p : Processed}
    (h : s.sendTunFD env needed extra = some p) :
    Contained s True p ↔ ¬ s.NeedFails env isAddress (.openTun extra) := by
  rw [sendTunFD] at h
  rw [NeedFails]
  by_cases hextra : extra = "tun".toList
  · rw [if_neg (not_not.2 hextra)] at h
    obtain ⟨o, ho, rfl⟩ := Option.map_eq_some_iff.1 h
    rw [and_iff_right hextra, not_not, ← TunState.openTun_result_iff ho]
    cases hres : o.result with
    | thrown => exact iff_of_false (not_contained_of_thrown rfl) (not_not.2 rfl)
    | null => exact iff_of_true (contained_of_wellFormed rfl trivial) (by simp)
    | established => exact iff_of_true (contained_of_wellFormed rfl trivial) (by simp)
  · rw [if_pos hextra] at h
    obtain rfl := Option.some.inj h
    exact iff_of_true (contained_of_wellFormed rfl trivial) fun h => hextra h.1

theorem processNeed_contained_iff {needed : Text} {need : Need} {p : Processed}
    (h : s.processNeed env needed need = some p) :
    Contained s (need.WellFormed isAddress) p ↔ ¬ s.NeedFails env isAddress need := by
  cases need with
  | protectFd =>
      obtain rfl := Option.some.inj h
      exact iff_of_true (contained_of_wellFormed rfl trivial) not_false
  | persistTunAction =>
      obtain rfl := Option.some.inj h
      exact iff_of_true (contained_of_wellFormed rfl trivial) not_false
  | openTun extra => exact sendTunFD_contained_iff h
  | push push =>
      obtain rfl := Option.some.inj h
      refine Iff.trans ?_ (TunState.push_contained_iff push)
      cases hthrown : (s.tun.push env.cfg push).thrown with
      | true =>
          refine iff_of_false (not_contained_of_thrown rfl) ?_
          exact TunState.not_contained_of_thrown hthrown
      | false =>
          constructor
          · rintro ⟨-, hkept⟩
            exact ⟨hthrown, fun hwf => (hkept hwf).tun⟩
          · rintro ⟨-, hsame⟩
            exact ⟨rfl, fun hwf => ⟨hsame hwf, rfl, rfl⟩⟩

theorem processNeedCommand_contained_iff {argument : Text} {p : Processed}
    (h : s.processNeedCommand env argument = some p) :
    Contained s (Line.WellFormed isAddress (.needOk argument)) p ↔
      ¬ s.LineFails env isAddress (.needOk argument) := by
  rw [processNeedCommand] at h
  rw [Line.WellFormed, LineFails]
  by_cases hargument : argument = []
  · rw [if_pos hargument] at h
    obtain rfl := Option.some.inj h
    exact iff_of_true (contained_of_kept rfl (Kept.refl s)) fun h => h.1 hargument
  · rw [if_neg hargument] at h
    rw [and_iff_right hargument]
    cases hrequest : request argument with
    | none =>
        rw [hrequest] at h
        obtain rfl := Option.some.inj h
        exact iff_of_false (not_contained_of_thrown rfl) (not_not.2 trivial)
    | some r =>
        obtain ⟨needed, extra⟩ := r
        rw [hrequest] at h
        dsimp only at h ⊢
        simp only [Option.mem_def, Option.some.injEq, exists_eq_left']
        cases hneed : needOf needed extra with
        | none =>
            rw [hneed] at h
            obtain rfl := Option.some.inj h
            exact iff_of_true (contained_of_kept rfl (Kept.refl s)) not_false
        | some need =>
            rw [hneed] at h
            simp only [Option.some.injEq, exists_eq_left']
            exact processNeed_contained_iff h

/-- A call that ends is contained exactly if the line does not fail. -/
theorem processLine_contained_iff {line : Line} {p : Processed}
    (h : s.processLine env line = some p) :
    Contained s (line.WellFormed isAddress) p ↔ ¬ s.LineFails env isAddress line := by
  cases line with
  | info | success | unrecognized =>
      obtain rfl := Option.some.inj h
      exact iff_of_true (contained_of_kept rfl (Kept.refl s)) not_false
  | protectFd =>
      obtain rfl := Option.some.inj h
      exact iff_of_true (contained_of_kept rfl ⟨SameConfig.refl s.tun, rfl, rfl⟩) not_false
  | password argument =>
      obtain rfl := Option.some.inj h
      exact iff_of_true (processPWCommand_contained argument) not_false
  | proxy argument =>
      obtain rfl := Option.some.inj h
      exact iff_of_true (processProxyCMD_contained argument) not_false
  | hold argument =>
      obtain rfl := Option.some.inj h
      exact handleHold_contained_iff argument
  | needOk argument => exact processNeedCommand_contained_iff h
  | bytecount argument =>
      obtain rfl := Option.some.inj h
      exact processByteCount_contained_iff argument
  | state argument =>
      obtain rfl := Option.some.inj h
      exact processState_contained_iff argument
  | log argument =>
      obtain rfl := Option.some.inj h
      exact processLogMessage_contained_iff argument
  | rsaSign argument =>
      obtain rfl := Option.some.inj h
      exact processSignCommand_contained_iff argument

/-! ## The call ends -/

/-- The networks of each space are of its address family. -/
def FamiliesHold (s : Session) : Prop :=
  TunState.RoutesHold (fun a => a.isV4 = true) (fun a => a.isV4 = false) s.tun

/-- A request leaves the configuration alone, pushes a part of it or opens the device with it. -/
theorem processNeed_tun {needed : Text} {need : Need} {p : Processed}
    (h : s.processNeed env needed need = some p) :
    p.state.tun = s.tun ∨ (∃ push, p.state.tun = (s.tun.push env.cfg push).state) ∨
      ∃ o, s.tun.openTun env.cfg env.openEnv = some o ∧ p.state.tun = o.state := by
  cases need with
  | protectFd | persistTunAction =>
      obtain rfl := Option.some.inj h
      exact .inl rfl
  | push push =>
      obtain rfl := Option.some.inj h
      refine .inr (.inl ⟨push, ?_⟩)
      split <;> rfl
  | openTun extra =>
      rw [processNeed, sendTunFD] at h
      split at h
      · obtain rfl := Option.some.inj h
        exact .inl rfl
      · obtain ⟨o, ho, rfl⟩ := Option.map_eq_some_iff.1 h
        refine .inr (.inr ⟨o, ho, ?_⟩)
        dsimp only
        split <;> rfl

/-- Only requests touch the configuration. -/
theorem processLine_tun {line : Line} {p : Processed} (h : s.processLine env line = some p) :
    p.state.tun = s.tun ∨ (∃ push, p.state.tun = (s.tun.push env.cfg push).state) ∨
      ∃ o, s.tun.openTun env.cfg env.openEnv = some o ∧ p.state.tun = o.state := by
  cases line with
  | needOk argument =>
      rw [processLine, processNeedCommand] at h
      split at h
      · obtain rfl := Option.some.inj h
        exact .inl rfl
      · split at h
        · obtain rfl := Option.some.inj h
          exact .inl rfl
        · split at h
          · obtain rfl := Option.some.inj h
            exact .inl rfl
          · exact processNeed_tun h
  | info | success | unrecognized | protectFd =>
      obtain rfl := Option.some.inj h
      exact .inl rfl
  | password argument =>
      obtain rfl := Option.some.inj h
      refine .inl ?_
      rw [processPWCommand]
      split
      · rfl
      · split
        · rfl
        · split
          · rfl
          · split <;> rfl
  | proxy argument =>
      obtain rfl := Option.some.inj h
      refine .inl ?_
      rw [processProxyCMD]
      split <;> rfl
  | hold argument =>
      obtain rfl := Option.some.inj h
      refine .inl ?_
      rw [handleHold]
      split <;> rfl
  | bytecount argument =>
      obtain rfl := Option.some.inj h
      refine .inl ?_
      rw [processByteCount]
      split
      · split <;> rfl
      · rfl
  | state argument =>
      obtain rfl := Option.some.inj h
      refine .inl ?_
      rw [processState]
      split
      · rfl
      · split <;> rfl
  | log argument =>
      obtain rfl := Option.some.inj h
      refine .inl ?_
      rw [processLogMessage]
      split
      · split <;> rfl
      · rfl
  | rsaSign argument =>
      obtain rfl := Option.some.inj h
      refine .inl ?_
      rw [processSignCommand]
      split <;> rfl

theorem FamiliesHold.processCommand (hs : s.FamiliesHold) {command : Text} {p : Processed}
    (h : s.processCommand env command = some p) : p.state.FamiliesHold := by
  rw [FamiliesHold]
  rcases processLine_tun h with heq | ⟨push, heq⟩ | ⟨o, ho, heq⟩
  · rw [heq]
    exact hs
  · rw [heq]
    exact TunState.RoutesHold.push TunState.holdsOfAdded_isV4 hs push
      fun _ hnet => TunState.network6_isV4 hnet
  · rw [heq]
    exact TunState.RoutesHold.openTun TunState.holdsOfAdded_isV4 hs ho

/-- Whatever the queues return among equal networks, the call ends. -/
theorem processCommand_ends (hs : s.FamiliesHold) (env : Surroundings) (command : Text)
    (order orderv6 : Nat → Nat) : ∃ rounds roundsv6 p,
      s.processCommand (env.polling order orderv6 rounds roundsv6) command = some p := by
  obtain ⟨rounds, roundsv6, o, ho⟩ : ∃ rounds roundsv6 o,
      s.tun.openTun env.cfg (env.openEnv.polling order orderv6 rounds roundsv6) = some o :=
    TunState.openTun_ends hs order orderv6
  refine ⟨rounds, roundsv6, ?_⟩
  rw [Session.processCommand]
  cases lineOf command with
  | needOk argument =>
      rw [processLine, processNeedCommand]
      split
      · exact ⟨_, rfl⟩
      · split
        · exact ⟨_, rfl⟩
        · split
          · exact ⟨_, rfl⟩
          next needed extra _ _ need hneed =>
            cases need with
            | protectFd | persistTunAction | push push => exact ⟨_, rfl⟩
            | openTun extra =>
                rw [processNeed, sendTunFD]
                split
                · exact ⟨_, rfl⟩
                · exact ⟨_, congrArg (Option.map _) ho⟩
  | _ => exact ⟨_, rfl⟩

end Session

/-! ## All lines -/

/-- The lines that a service receives. One that throws ends its thread, and what it has left behind
is what the next thread finds. -/
def lineMachine : Machine Session (Surroundings × Text) Text := fun s l =>
  (s.processCommand l.1 l.2).map fun p => (p.state, p.written)

theorem familiesHold_of_visits {s₀ : { s : Session // s.tun.Clear }}
    {ls : List (Surroundings × Text)} {s : Session} (hs : lineMachine.Visits s₀.1 ls s) :
    s.FamiliesHold := by
  refine Machine.visits_inv (I := Session.FamiliesHold) (C := fun _ => True) ?_
    (TunState.RoutesHold.of_clear s₀.2) (fun _ _ => trivial) hs
  intro x hx hinv _
  obtain ⟨p, hp, heq⟩ := Option.map_eq_some_iff.1 hx
  have hpost : p.state = x.post := congrArg Prod.fst heq
  rw [← hpost]
  exact hinv.processCommand hp

/-- Dotted quads. -/
def isDottedQuad (t : Text) : Prop :=
  (t.splitOn '.').length = 4 ∧
    ∀ field ∈ t.splitOn '.', field ≠ [] ∧ field.all Char.isDigit ∧ field.length ≤ 3

/-- A device on which nothing disturbs a line. -/
def quiet : Surroundings where
  cfg := phone
  callback := true
  now := 0
  detectProxy := none
  getSignedData := fun _ => .null
  openEnv := undisturbed
  sendsFd := .closed

end PortVpn.Management
