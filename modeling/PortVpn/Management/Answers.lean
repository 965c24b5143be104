import PortVpn.Config.LineSize
import PortVpn.Lib.Machine
import PortVpn.Management.MalformedLine

/-!
# What the process receives

The thread answers on the socket on which it is asked, and the process cuts what it receives at the
newlines. Every command that the thread writes is one line, whatever the texts in it are
(`received_run`), so that no user name and no password can be taken for a command. Which of them
`parseline`, the app's version of the parser of OpenVPN, reads from their lines is the matter of
`passwordRequest_read_iff`.
-/

set_option autoImplicit false

namespace PortVpn.Management

open PortVpn.Lib PortVpn.Config

/-! ## The run of a thread -/

/-- The thread takes the lines one after another, and ends when one of them throws. -/
def sessionMachine : Machine Session (Surroundings × Text) Text := fun s l =>
  match s.processCommand l.1 l.2 with
  | none => none
  | some p => if p.thrown then none else some (p.state, p.written)

/-- The lines that the process cuts a text into. -/
def received (t : Text) : List Text := (t.splitOn '\n').dropLast

theorem received_cons {line : Text} (h : '\n' ∉ line) (t : Text) :
    received (line ++ '\n' :: t) = line :: received t := by
  rw [received, List.splitOn_append_cons_self, List.splitOn_eq_singleton h, List.singleton_append,
    List.dropLast_cons_of_ne_nil (List.splitOn_ne_nil '\n' t), received]

theorem received_lines {lines : List Text} (h : ∀ line ∈ lines, '\n' ∉ line) (t : Text) :
    received (lines.flatMap (· ++ ['\n']) ++ t) = lines ++ received t := by
  induction lines with
  | nil => rfl
  | cons line lines ih =>
      obtain ⟨hline, hlines⟩ := List.forall_mem_cons.1 h
      rw [List.flatMap_cons, List.append_assoc, List.append_assoc, List.singleton_append,
        received_cons hline, ih hlines, List.cons_append]

/-! ## Every command is a line -/

/-- A command that is one line. -/
def IsLine (cmd : Text) : Prop := ∃ line, cmd = line ++ ['\n'] ∧ '\n' ∉ line

/-- A host has no newline in its name, and a signature is written without line breaks. -/
structure Surroundings.Clean (env : Surroundings) : Prop where
  host : ∀ p ∈ env.detectProxy, '\n' ∉ p.1
  signature : ∀ b64data signed, env.getSignedData b64data = .signature signed → '\n' ∉ signed

namespace Session

section Commands

variable {env : Surroundings} {s : Session} {p : Processed} {argument : Text}

theorem mem_managmentCommands {cmds : List Text} {cmd : Text}
    (h : cmd ∈ (s.managmentCommands cmds).written) : cmd ∈ cmds := by
  rw [managmentCommands] at h
  split at h
  · exact h
  · exact absurd h List.not_mem_nil

theorem isLine_needok {needed status : Text} (hn : '\n' ∉ needed) (hs : '\n' ∉ status) :
    IsLine (needok needed status) := by
  refine ⟨"needok '".toList ++ needed ++ "' ".toList ++ status, rfl, ?_⟩
  simp only [List.mem_append, not_or]
  exact ⟨⟨⟨by decide, hn⟩, by decide⟩, hs⟩

theorem notMem_quoted {c : Char} {t needed rest : Text} (h : quoted t = some (needed, rest))
    (hc : c ∉ t) : c ∉ needed := by
  rw [quoted] at h
  split at h
  · exact nomatch h
  · rename_i d rest' hdrop
    have hsub : ∀ x ∈ rest', x ∈ t := fun x hx => (List.dropWhile_sublist _).mem
      (hdrop ▸ List.mem_cons_of_mem d hx)
    split at h
    · exact nomatch h
    · obtain ⟨rfl, -⟩ := Prod.mk.inj (Option.some.inj h)
      exact fun hm => hc (hsub c ((List.takeWhile_sublist _).mem hm))

theorem isLine_pwCommand {name needed : Text} {value : Text} (hname : '\n' ∉ name)
    (hn : '\n' ∉ needed) (hvalue : '\n' ∉ value) :
    IsLine (name ++ needed ++ "' ".toList ++ value ++ ['\n']) := by
  refine ⟨name ++ needed ++ "' ".toList ++ value, rfl, ?_⟩
  simp only [List.mem_append, not_or]
  exact ⟨⟨⟨hname, hn⟩, by decide⟩, hvalue⟩

theorem isLine_processPWCommand (hnl : '\n' ∉ argument) :
    ∀ cmd ∈ (s.processPWCommand argument).written, IsLine cmd := by
  have hpw : ∀ needed pw, '\n' ∉ needed → ∀ cmd ∈ passwordCmd needed pw, IsLine cmd := by
    intro needed pw hn cmd hcmd
    obtain ⟨pw, -, rfl⟩ := List.mem_map.1 hcmd
    exact isLine_pwCommand (by decide) hn (newline_notMem_openVpnEscape pw)
  rw [processPWCommand]
  split
  · exact fun cmd hcmd => absurd hcmd List.not_mem_nil
  · rename_i needed args hquoted
    have hn := notMem_quoted hquoted hnl
    split
    · exact fun cmd hcmd => absurd hcmd List.not_mem_nil
    · split
      · exact fun cmd hcmd => hpw _ _ hn cmd (mem_managmentCommands hcmd)
      · split
        · intro cmd hcmd
          rcases List.mem_cons.1 (mem_managmentCommands hcmd) with rfl | hcmd
          · refine isLine_pwCommand (by decide) hn ?_
            cases s.profile.mUsername with
            | none => decide
            | some user => exact newline_notMem_openVpnEscape user
          · exact hpw _ _ hn cmd hcmd
        · exact fun cmd hcmd => absurd hcmd List.not_mem_nil

theorem isLine_processProxyCMD (henv : env.Clean) :
    ∀ cmd ∈ (s.processProxyCMD env argument).written, IsLine cmd := by
  rw [processProxyCMD]
  split
  · rename_i host port hproxy
    have hhost : '\n' ∉ host := by
      split at hproxy
      · cases hproxy
      · exact henv.host (host, port) hproxy
    intro cmd hcmd
    rw [List.mem_singleton.1 (mem_managmentCommands hcmd)]
    refine ⟨"proxy HTTP ".toList ++ host ++ ' ' :: decimal port, by simp, ?_⟩
    have hport : '\n' ∉ decimal port := fun h => by
      rcases mem_decimal h with h | h <;> exact absurd h (by decide)
    simp only [List.mem_append, List.mem_cons, not_or]
    exact ⟨⟨by decide, hhost⟩, by decide, hport⟩
  · intro cmd hcmd
    rw [List.mem_singleton.1 (mem_managmentCommands hcmd)]
    exact ⟨"proxy NONE".toList, rfl, by decide⟩

theorem newline_notMem_getTunReopenStatus (cfg : Service.Setting) (tun : Service.TunState) :
    '\n' ∉ tun.getTunReopenStatus cfg := by
  rw [Service.TunState.getTunReopenStatus]
  split
  · decide
  · split <;> decide

theorem isLine_sendTunFD {needed extra : Text} (hn : '\n' ∉ needed)
    (h : s.sendTunFD env needed extra = some p) : ∀ cmd ∈ p.written, IsLine cmd := by
  have hcancel : IsLine (needok needed "cancel".toList) := isLine_needok hn (by decide)
  rw [sendTunFD] at h
  split at h
  · obtain rfl := Option.some.inj h
    intro cmd hcmd
    rw [List.mem_singleton.1 (mem_managmentCommands hcmd)]
    exact hcancel
  · obtain ⟨o, -, rfl⟩ := Option.map_eq_some_iff.1 h
    dsimp only
    split
    · exact fun cmd hcmd => absurd hcmd List.not_mem_nil
    · intro cmd hcmd
      rw [List.mem_singleton.1 (mem_managmentCommands hcmd)]
      exact hcancel
    · intro cmd hcmd
      have hok : IsLine (needok needed "ok".toList) := isLine_needok hn (by decide)
      have hcmd := mem_managmentCommands hcmd
      rw [sentFdCommands.eq_def] at hcmd
      split at hcmd
      · rw [List.mem_singleton.1 hcmd]
        exact hok
      · rw [List.mem_singleton.1 hcmd]
        exact hcancel
      · rcases List.mem_cons.1 hcmd with rfl | hcmd
        · exact hok
        · rw [List.mem_singleton.1 hcmd]
          exact hcancel

theorem isLine_processNeed {needed : Text} {need : Need} (hn : '\n' ∉ needed)
    (h : s.processNeed env needed need = some p) : ∀ cmd ∈ p.written, IsLine cmd := by
  have hok : IsLine (needok needed "ok".toList) := isLine_needok hn (by decide)
  cases need with
  | protectFd =>
      obtain rfl := Option.some.inj h
      intro cmd hcmd
      rw [List.mem_singleton.1 (mem_managmentCommands hcmd)]
      exact hok
  | push push =>
      obtain rfl := Option.some.inj h
      split
      · exact fun cmd hcmd => nomatch hcmd
      · intro cmd hcmd
        rw [List.mem_singleton.1 (mem_managmentCommands hcmd)]
        exact hok
  | persistTunAction =>
      obtain rfl := Option.some.inj h
      intro cmd hcmd
      rw [List.mem_singleton.1 (mem_managmentCommands hcmd)]
      exact isLine_needok hn (newline_notMem_getTunReopenStatus env.cfg s.tun)
  | openTun extra => exact isLine_sendTunFD hn h

theorem isLine_processNeedCommand (hnl : '\n' ∉ argument)
    (h : s.processNeedCommand env argument = some p) : ∀ cmd ∈ p.written, IsLine cmd := by
  rw [processNeedCommand] at h
  split at h
  · obtain rfl := Option.some.inj h
    exact fun cmd hcmd => absurd hcmd List.not_mem_nil
  · split at h
    · obtain rfl := Option.some.inj h
      exact fun cmd hcmd => absurd hcmd List.not_mem_nil
    · rename_i needed extra hrequest
      split at h
      · obtain rfl := Option.some.inj h
        exact fun cmd hcmd => absurd hcmd List.not_mem_nil
      · refine isLine_processNeed ?_ h
        rw [request] at hrequest
        split at hrequest
        · rename_i needed' _ _ _ _ hquoted _
          obtain ⟨rfl, -⟩ := Prod.mk.inj (Option.some.inj hrequest)
          exact notMem_quoted hquoted hnl
        · cases hrequest

end Commands

/-! ## The lines of a run -/

section Lines

variable {env : Surroundings} {s : Session} {p : Processed} {command : Text}

theorem mem_of_mem_splitLimit {sep c : Char} {cuts : Nat} {t part : Text}
    (h : part ∈ splitLimit sep cuts t) (hc : c ∈ part) : c ∈ t := by
  induction cuts generalizing t with
  | zero => exact List.mem_singleton.1 h ▸ hc
  | succ cuts ih =>
      rw [splitLimit] at h
      split at h
      · exact List.mem_singleton.1 h ▸ hc
      · rename_i d rest hdrop
        rcases List.mem_cons.1 h with rfl | h
        · exact (List.takeWhile_sublist _).mem hc
        · exact (List.dropWhile_sublist _).mem (hdrop ▸ List.mem_cons_of_mem d (ih h))

/-- The text of a line's argument. -/
def Line.argument : Line → Text
  | .password argument | .hold argument | .needOk argument | .bytecount argument
  | .state argument | .proxy argument | .log argument | .rsaSign argument => argument
  | .info | .success | .protectFd | .unrecognized => []

theorem newline_notMem_argument (hnl : '\n' ∉ command) : '\n' ∉ (lineOf command).argument := by
  rw [lineOf]
  split
  · rename_i cmd argument hmessage
    have hargument : '\n' ∉ argument := by
      unfold message at hmessage
      split at hmessage
      · rename_i part argument' _ hsplit
        obtain ⟨-, rfl⟩ := Prod.mk.inj (Option.some.inj hmessage)
        exact fun hm => hnl (mem_of_mem_splitLimit (by rw [hsplit]; simp) hm)
      · exact nomatch hmessage
    split_ifs <;> first | exact hargument | exact List.not_mem_nil
  · split_ifs <;> exact List.not_mem_nil

/-- The lines that the process receives for a line of its own. Without a signature, an empty line
and the signal to stop are among them. -/
def answerLines (env : Surroundings) (command : Text) (out : List Text) : List Text :=
  match lineOf command with
  | .rsaSign b64data =>
      if out = [] then []
      else match env.getSignedData b64data with
        | .thrown => []
        | .signature signed => ["rsa-sig".toList, signed, "END".toList]
        | .null => ["rsa-sig".toList, [], "END".toList, "signal SIGINT".toList]
  | _ => out.map List.dropLast

theorem lines_of_isLine {cmds : List Text} (h : ∀ cmd ∈ cmds, IsLine cmd) :
    cmds.flatten = (cmds.map List.dropLast).flatMap (· ++ ['\n']) ∧
      ∀ line ∈ cmds.map List.dropLast, '\n' ∉ line := by
  induction cmds with
  | nil => exact ⟨rfl, fun _ h => nomatch h⟩
  | cons cmd cmds ih =>
      obtain ⟨⟨line, rfl, hline⟩, hcmds⟩ := List.forall_mem_cons.1 h
      obtain ⟨hflat, hlines⟩ := ih hcmds
      rw [List.flatten_cons, hflat, List.map_cons, List.flatMap_cons, List.dropLast_concat]
      exact ⟨rfl, List.forall_mem_cons.2 ⟨hline, hlines⟩⟩

/-- The three writes for a signature are three lines together. -/
theorem signCommand_lines (henv : env.Clean) {b64data : Text}
    (hline : lineOf command = .rsaSign b64data) :
    (s.processSignCommand env b64data).written.flatten =
        (answerLines env command (s.processSignCommand env b64data).written).flatMap (· ++ ['\n']) ∧
      ∀ line ∈ answerLines env command (s.processSignCommand env b64data).written, '\n' ∉ line := by
  rw [processSignCommand, answerLines, hline]
  cases hsigned : env.getSignedData b64data with
  | thrown => exact ⟨rfl, fun _ h => absurd h List.not_mem_nil⟩
  | signature signed =>
      have hsig := henv.signature b64data signed hsigned
      cases hsocket : s.thread.mSocket with
      | false => simp [managmentCommands, hsocket]
      | true =>
          simp [managmentCommands, hsocket, hsig, hsigned]
  | null =>
      cases hsocket : s.thread.mSocket with
      | false => simp [managmentCommands, hsocket]
      | true => simp [managmentCommands, hsocket, hsigned]

theorem written_handleHold (argument : Text) : (s.handleHold env argument).written = [] := by
  rw [handleHold]
  split <;> rfl

theorem written_processByteCount (argument : Text) : (s.processByteCount argument).written = [] := by
  rw [processByteCount]
  split
  · split <;> rfl
  · rfl

theorem written_processState (argument : Text) : (s.processState argument).written = [] := by
  rw [processState]
  split
  · rfl
  · split <;> rfl

theorem written_processLogMessage (argument : Text) :
    (s.processLogMessage argument).written = [] := by
  rw [processLogMessage]
  split
  · split <;> rfl
  · rfl

/-- Only four kinds of lines are answered. -/
theorem isLine_processLine (henv : env.Clean) {l : Line} (hnl : '\n' ∉ l.argument)
    (hsign : ∀ b64data, l ≠ .rsaSign b64data) (h : s.processLine env l = some p) :
    ∀ cmd ∈ p.written, IsLine cmd := by
  have hsilent : p.written = [] → ∀ cmd ∈ p.written, IsLine cmd := fun h cmd hcmd => by
    rw [h] at hcmd
    exact nomatch hcmd
  cases l with
  | password argument =>
      obtain rfl := Option.some.inj h
      exact isLine_processPWCommand hnl
  | needOk argument => exact isLine_processNeedCommand hnl h
  | proxy argument =>
      obtain rfl := Option.some.inj h
      exact isLine_processProxyCMD henv
  | rsaSign b64data => exact absurd rfl (hsign b64data)
  | hold argument =>
      obtain rfl := Option.some.inj h
      exact hsilent (written_handleHold argument)
  | bytecount argument =>
      obtain rfl := Option.some.inj h
      exact hsilent (written_processByteCount argument)
  | state argument =>
      obtain rfl := Option.some.inj h
      exact hsilent (written_processState argument)
  | log argument =>
      obtain rfl := Option.some.inj h
      exact hsilent (written_processLogMessage argument)
  | info | success | protectFd | unrecognized =>
      obtain rfl := Option.some.inj h
      exact hsilent rfl

/-- What a line is answered with is whole lines. -/
theorem written_eq_lines (henv : env.Clean) (hnl : '\n' ∉ command)
    (h : s.processCommand env command = some p) :
    p.written.flatten = (answerLines env command p.written).flatMap (· ++ ['\n']) ∧
      ∀ line ∈ answerLines env command p.written, '\n' ∉ line := by
  have hargument := newline_notMem_argument hnl
  rw [processCommand] at h
  by_cases hsign : ∃ b64data, lineOf command = .rsaSign b64data
  · obtain ⟨b64data, hline⟩ := hsign
    rw [hline] at h
    obtain rfl := Option.some.inj h
    exact signCommand_lines henv hline
  · have hlines := lines_of_isLine
      (isLine_processLine henv hargument (fun b64data hline => hsign ⟨b64data, hline⟩) h)
    rw [answerLines]
    split
    · rename_i b64data hline
      exact absurd ⟨b64data, hline⟩ hsign
    · exact hlines

end Lines

end Session

/-- **No answer runs into another one.** Over every run of the thread, the process receives for each
of its lines just the lines of the answer, one for each command, and a signature between its two
marks; no user name, no password and no other text in a command ends a line. -/
theorem received_run {s : Session} {ls : List (Surroundings × Text)}
    (henv : ∀ l ∈ ls, l.1.Clean) (hnl : ∀ l ∈ ls, '\n' ∉ l.2) :
    received ((sessionMachine.history s ls).flatMap Step.out).flatten =
      (sessionMachine.history s ls).flatMap fun x =>
        Session.answerLines x.label.1 x.label.2 x.out := by
  induction ls generalizing s with
  | nil => rfl
  | cons l ls ih =>
      obtain ⟨henv, henvs⟩ := List.forall_mem_cons.1 henv
      obtain ⟨hnl, hnls⟩ := List.forall_mem_cons.1 hnl
      cases hstep : sessionMachine s l with
      | none => rw [Machine.history_cons_of_none hstep]; rfl
      | some next =>
          obtain ⟨t, out⟩ := next
          rw [Machine.history_cons_of_some hstep, List.flatMap_cons, List.flatMap_cons,
            List.flatten_append]
          have hout : ∃ p, s.processCommand l.1 l.2 = some p ∧ p.written = out := by
            rw [sessionMachine] at hstep
            split at hstep
            · exact nomatch hstep
            · rename_i p hp
              split at hstep
              · exact nomatch hstep
              · exact ⟨p, hp, (Prod.mk.inj (Option.some.inj hstep)).2⟩
          obtain ⟨p, hp, rfl⟩ := hout
          obtain ⟨hflat, hlines⟩ := Session.written_eq_lines henv hnl hp
          rw [hflat, received_lines hlines, ih henvs hnls]

/-- A thread with its socket, for a user whose name and password have more than one line. -/
def unlined : Session where
  thread := { mSocket := true }
  profile := { mUsername := some "a\nb".toList, mPassword := some "c\nsignal SIGTERM".toList }

theorem quiet_clean : quiet.Clean where
  host := fun _ h => nomatch h
  signature := fun _ _ h => nomatch h

theorem received_run_unlined :
    received ((sessionMachine.history unlined
      [(quiet, ">PASSWORD:Need 'Auth' username/password".toList),
        (quiet, ">RSA_SIGN:QUJD".toList)]).flatMap Step.out).flatten =
      ["username 'Auth' \"a\\nb\"".toList, "password 'Auth' \"c\\nsignal SIGTERM\"".toList,
        "rsa-sig".toList, [], "END".toList, "signal SIGINT".toList] :=
  (received_run (by simpa using quiet_clean) (by decide)).trans (by decide +kernel)

/-! ## Passwords over a run -/

/-- A line that requests the password `needed`. -/
def asksFor (needed : Text) (command : Text) : Bool :=
  match Session.lineOf command with
  | .password argument =>
      match Session.quoted argument with
      | some (name, _) => !"Verification Failed".toList.isPrefixOf argument && name == needed
      | none => false
  | _ => false

namespace Credentials

/-- The profile without the transient passwords that have been asked for. -/
def spend (c : Credentials) (auth key : Bool) : Credentials :=
  { c with
    mTransientPW := if auth then none else c.mTransientPW
    mTransientPCKS12PW := if key then none else c.mTransientPCKS12PW }

/-- What a line leaves of the profile: a transient password goes with its request. -/
def after (c : Credentials) (command : Text) : Credentials :=
  c.spend (asksFor "Auth".toList command) (asksFor "Private Key".toList command)

/-- The password that answers a request, with the requests before it. -/
def passwordFor (c : Credentials) (commands : List Text) (needed : Text) : Option Text :=
  let c := c.spend (commands.any (asksFor "Auth".toList)) (commands.any (asksFor "Private Key".toList))
  if needed = "Private Key".toList then c.getPasswordPrivateKey.1
  else if needed = "Auth".toList then c.getPasswordAuth.1
  else none

theorem getPasswordPrivateKey_snd (c : Credentials) :
    c.getPasswordPrivateKey.2 = c.spend false true := by
  rw [getPasswordPrivateKey]
  split
  · rfl
  · rename_i hnone
    have hspent : c.spend false true = c := by
      rw [spend, if_neg Bool.false_ne_true, if_pos rfl, ← hnone]
    rw [hspent]
    split <;> rfl

theorem getPasswordAuth_snd (c : Credentials) : c.getPasswordAuth.2 = c.spend true false := by
  rw [getPasswordAuth]
  split
  · rfl
  · rename_i hnone
    rw [spend, if_neg Bool.false_ne_true, if_pos rfl, ← hnone]

theorem spend_spend (c : Credentials) (auth key auth' key' : Bool) :
    (c.spend auth key).spend auth' key' = c.spend (auth || auth') (key || key') := by
  cases auth <;> cases auth' <;> cases key <;> cases key' <;> rfl

/-- **The profile after a run of lines**: a transient password is gone once it has been asked for,
and nothing else changes. -/
theorem foldl_after (commands : List Text) (c : Credentials) :
    commands.foldl after c =
      c.spend (commands.any (asksFor "Auth".toList)) (commands.any (asksFor "Private Key".toList)) := by
  induction commands generalizing c with
  | nil => rfl
  | cons command commands ih => rw [List.foldl_cons, ih, after, spend_spend]; rfl

end Credentials

/-- A line for which `mFDList` is polled. -/
def polls (command : Text) : Bool :=
  match Session.lineOf command with
  | .protectFd => true
  | .needOk argument =>
      match Session.request argument with
      | some (needed, extra) =>
          argument != [] && Session.needOf needed extra == some .protectFd
      | none => false
  | _ => false

namespace Session

variable {env : Surroundings} {s : Session} {p : Processed} {command : Text}

theorem asksFor_of_quoted {argument needed args : Text} (hline : lineOf command = .password argument)
    (hquoted : quoted argument = some (needed, args)) (name : Text) :
    asksFor name command =
      (!"Verification Failed".toList.isPrefixOf argument && needed == name) := by
  rw [asksFor, hline]
  dsimp only
  rw [hquoted]

theorem after_of_not_password (c : Credentials)
    (h : ∀ argument, lineOf command ≠ .password argument) : c.after command = c := by
  have hasks : ∀ name, asksFor name command = false := fun name => by
    rw [asksFor]
    split
    · rename_i argument hline
      exact absurd hline (h argument)
    · rfl
  rw [Credentials.after, hasks, hasks]
  rfl

/-- The profile and the received descriptors, with what a line takes of them. -/
structure Takes (s : Session) (command : Text) (t : Session) : Prop where
  profile : t.profile = s.profile.after command
  mFDList : t.mFDList = s.mFDList - (polls command).toNat

theorem processPWCommand_profile {argument : Text} (hline : lineOf command = .password argument) :
    (s.processPWCommand argument).state.profile = s.profile.after command := by
  rw [processPWCommand, Credentials.after]
  cases hquoted : quoted argument with
  | none =>
      have hasks : ∀ name, asksFor name command = false := fun name => by
        rw [asksFor, hline]
        dsimp only
        rw [hquoted]
      rw [hasks, hasks]
      rfl
  | some r =>
      obtain ⟨needed, args⟩ := r
      dsimp only
      rw [asksFor_of_quoted hline hquoted, asksFor_of_quoted hline hquoted]
      cases hfailed : "Verification Failed".toList.isPrefixOf argument with
      | true => rfl
      | false =>
          rw [if_neg Bool.false_ne_true, Bool.not_false, Bool.true_and, Bool.true_and]
          by_cases hkey : needed = "Private Key".toList
          · subst hkey
            rw [if_pos rfl]
            exact s.profile.getPasswordPrivateKey_snd
          · rw [if_neg hkey]
            by_cases hauth : needed = "Auth".toList
            · subst hauth
              rw [if_pos rfl]
              exact s.profile.getPasswordAuth_snd
            · rw [if_neg hauth, beq_false_of_ne hkey, beq_false_of_ne hauth]
              rfl

theorem processPWCommand_mFDList (s : Session) (argument : Text) :
    (s.processPWCommand argument).state.mFDList = s.mFDList := by
  rw [processPWCommand]
  split
  · rfl
  · split
    · rfl
    · split
      · rfl
      · split <;> rfl

theorem processNeed_takes {needed : Text} {need : Need}
    (h : s.processNeed env needed need = some p) :
    p.state.profile = s.profile ∧
      p.state.mFDList = s.mFDList - (need == .protectFd).toNat := by
  cases need with
  | protectFd | persistTunAction =>
      obtain rfl := Option.some.inj h
      exact ⟨rfl, rfl⟩
  | push push =>
      obtain rfl := Option.some.inj h
      split <;> exact ⟨rfl, rfl⟩
  | openTun extra =>
      rw [processNeed, sendTunFD] at h
      split at h
      · obtain rfl := Option.some.inj h
        exact ⟨rfl, rfl⟩
      · obtain ⟨o, -, rfl⟩ := Option.map_eq_some_iff.1 h
        dsimp only
        split <;> exact ⟨rfl, rfl⟩

theorem processNeedCommand_takes {argument : Text} (hline : lineOf command = .needOk argument)
    (h : s.processNeedCommand env argument = some p) : s.Takes command p.state := by
  have hpassword : s.profile.after command = s.profile :=
    after_of_not_password _ (by simp [hline])
  have hsame : polls command = false → p.state = s → s.Takes command p.state := by
    intro hpolls hp
    rw [hp]
    exact ⟨hpassword.symm, by rw [hpolls]; rfl⟩
  rw [processNeedCommand] at h
  by_cases hempty : argument = []
  · rw [if_pos hempty] at h
    obtain rfl := Option.some.inj h
    exact hsame (by rw [polls, hline, hempty]; rfl) rfl
  · rw [if_neg hempty] at h
    have hpolls : polls command = (match request argument with
        | some (needed, extra) => needOf needed extra == some .protectFd
        | none => false) := by
      rw [polls, hline]
      dsimp only
      split
      · rw [bne_iff_ne.2 hempty, Bool.true_and]
      · rfl
    cases hrequest : request argument with
    | none =>
        rw [hrequest] at h hpolls
        obtain rfl := Option.some.inj h
        exact hsame hpolls rfl
    | some r =>
        obtain ⟨needed, extra⟩ := r
        rw [hrequest] at h hpolls
        dsimp only at h hpolls
        cases hneed : needOf needed extra with
        | none =>
            rw [hneed] at h hpolls
            obtain rfl := Option.some.inj h
            exact hsame hpolls rfl
        | some need =>
            rw [hneed] at h hpolls
            obtain ⟨hprofile, hfds⟩ := processNeed_takes h
            refine ⟨hprofile.trans hpassword.symm, ?_⟩
            rw [hfds, hpolls]
            rfl

/-- **What a line takes**: a transient password goes with its request, and a descriptor with
its. -/
theorem processCommand_takes (h : s.processCommand env command = some p) :
    s.Takes command p.state := by
  rw [processCommand] at h
  have hother : (∀ argument, lineOf command ≠ .password argument) → polls command = false →
      p.state.profile = s.profile ∧ p.state.mFDList = s.mFDList → s.Takes command p.state := by
    intro hpassword hpolls hp
    exact ⟨hp.1.trans (after_of_not_password _ hpassword).symm, by rw [hp.2, hpolls]; rfl⟩
  cases hline : lineOf command with
  | password argument =>
      rw [hline] at h
      obtain rfl := Option.some.inj h
      refine ⟨processPWCommand_profile hline, (processPWCommand_mFDList s argument).trans ?_⟩
      rw [polls, hline]
      rfl
  | needOk argument =>
      rw [hline] at h
      exact processNeedCommand_takes hline h
  | protectFd =>
      rw [hline] at h
      obtain rfl := Option.some.inj h
      refine ⟨(after_of_not_password _ (by simp [hline])).symm, ?_⟩
      rw [polls, hline]
      rfl
  | hold argument =>
      rw [hline] at h
      obtain rfl := Option.some.inj h
      refine hother (by simp [hline]) (by simp only [polls, hline]) ?_
      rw [handleHold]
      split <;> exact ⟨rfl, rfl⟩
  | bytecount argument =>
      rw [hline] at h
      obtain rfl := Option.some.inj h
      refine hother (by simp [hline]) (by simp only [polls, hline]) ?_
      rw [processByteCount]
      split
      · split <;> exact ⟨rfl, rfl⟩
      · exact ⟨rfl, rfl⟩
  | state argument =>
      rw [hline] at h
      obtain rfl := Option.some.inj h
      refine hother (by simp [hline]) (by simp only [polls, hline]) ?_
      rw [processState]
      split
      · exact ⟨rfl, rfl⟩
      · split <;> exact ⟨rfl, rfl⟩
  | proxy argument =>
      rw [hline] at h
      obtain rfl := Option.some.inj h
      refine hother (by simp [hline]) (by simp only [polls, hline]) ?_
      rw [processProxyCMD]
      split <;> exact ⟨rfl, rfl⟩
  | log argument =>
      rw [hline] at h
      obtain rfl := Option.some.inj h
      refine hother (by simp [hline]) (by simp only [polls, hline]) ?_
      rw [processLogMessage]
      split
      · split <;> exact ⟨rfl, rfl⟩
      · exact ⟨rfl, rfl⟩
  | rsaSign argument =>
      rw [hline] at h
      obtain rfl := Option.some.inj h
      refine hother (by simp [hline]) (by simp only [polls, hline]) ?_
      rw [processSignCommand]
      split <;> exact ⟨rfl, rfl⟩
  | info | success | unrecognized =>
      rw [hline] at h
      obtain rfl := Option.some.inj h
      exact hother (by simp [hline]) (by simp only [polls, hline]) ⟨rfl, rfl⟩

end Session

/-- What a step of the thread takes. -/
theorem sessionMachine_takes {s t : Session} {l : Surroundings × Text} {out : List Text}
    (h : sessionMachine s l = some (t, out)) : s.Takes l.2 t := by
  rw [sessionMachine] at h
  split at h
  · exact nomatch h
  · rename_i p hp
    split at h
    · exact nomatch h
    · rw [← (Prod.mk.inj (Option.some.inj h)).1]
      exact Session.processCommand_takes hp

theorem profile_stateAfter (s : Session) (ls : List (Surroundings × Text)) :
    (Machine.stateAfter s (sessionMachine.history s ls)).profile =
      ((sessionMachine.history s ls).map fun x => x.label.2).foldl Credentials.after s.profile := by
  induction ls generalizing s with
  | nil => rfl
  | cons l ls ih =>
      cases hstep : sessionMachine s l with
      | none => rw [Machine.history_cons_of_none hstep]; rfl
      | some next =>
          obtain ⟨t, out⟩ := next
          rw [Machine.history_cons_of_some hstep, Machine.stateAfter_cons, ih, List.map_cons,
            List.foldl_cons, (sessionMachine_takes hstep).profile]

/-! ## What is read of an answer -/

/-- The line of a user name or a password. -/
def answerLine (name needed value : Text) : Text :=
  name ++ ' ' :: '\'' :: (needed ++ '\'' :: ' ' :: value)

theorem newline_notMem_answerLine {name needed value : Text} (hname : '\n' ∉ name)
    (hn : '\n' ∉ needed) (hvalue : '\n' ∉ value) : '\n' ∉ answerLine name needed value := by
  simp [answerLine, hname, hn, hvalue]

/-- An answer is read as it is meant exactly if the text in it survives. -/
theorem parseline_answer_iff {name needed value : Text} (hname : Word name) (hn : '\'' ∉ needed)
    (hn0 : '\x00' ∉ needed) (h0 : '\x00' ∉ value) :
    parseline (answerLine name needed (openVpnEscape value)) = .ok [name, needed, value] ↔
      Survives value := by
  have hneeded : needed.filter (· != '\x00') = needed :=
    List.filter_eq_self.2 fun c hc => bne_iff_ne.2 fun h => hn0 (h ▸ hc)
  rw [parseline_eq, answerLine]
  simp only [List.append_assoc, List.cons_append]
  rw [parselineLoop_word hname (by decide), parselineLoop_open_single, parselineLoop_single hn,
    List.nil_append, hneeded, parselineLoop_space (by decide), ← parselineLoop_last_iff h0]
  constructor
  · exact fun h => (map_cons_eq_ok (map_cons_eq_ok h).2).2
  · intro h
    rw [h]
    rfl

theorem exists_of_asksFor {needed command : Text} (h : asksFor needed command = true) :
    ∃ argument args, Session.lineOf command = .password argument ∧
      Session.quoted argument = some (needed, args) ∧
      "Verification Failed".toList.isPrefixOf argument = false := by
  rw [asksFor] at h
  split at h
  · rename_i argument hline
    split at h
    · rename_i name args hquoted
      simp only [Bool.and_eq_true, Bool.not_eq_true', beq_iff_eq] at h
      exact ⟨argument, args, hline, h.2 ▸ hquoted, h.1⟩
    · exact nomatch h
  · exact nomatch h

namespace Session

variable {env : Surroundings} {s : Session} {command pw : Text}

/-- The answer to a request for the password of the private key. -/
theorem processCommand_privateKey (hasks : asksFor "Private Key".toList command = true)
    (hsocket : s.thread.mSocket = true) (hpw : s.profile.getPasswordPrivateKey.1 = some pw) :
    ∃ p, s.processCommand env command = some p ∧ p.thrown = false ∧
      p.written =
        [answerLine "password".toList "Private Key".toList (openVpnEscape pw) ++ ['\n']] := by
  obtain ⟨argument, args, hline, hquoted, hfailed⟩ := exists_of_asksFor hasks
  refine ⟨s.processPWCommand argument, ?_, ?_, ?_⟩
  · rw [processCommand, hline]
    rfl
  all_goals
    rw [processPWCommand, hquoted]
    dsimp only
    rw [if_neg (hfailed ▸ Bool.false_ne_true), if_pos rfl, managmentCommands]
  rw [hpw]
  exact if_pos hsocket

/-- The answer to a request for the password of the user. -/
theorem processCommand_auth (hasks : asksFor "Auth".toList command = true)
    (hsocket : s.thread.mSocket = true) (hpw : s.profile.getPasswordAuth.1 = some pw) :
    ∃ p, s.processCommand env command = some p ∧ p.thrown = false ∧
      p.written =
        [answerLine "username".toList "Auth".toList
            ((s.profile.mUsername.map openVpnEscape).getD "null".toList) ++ ['\n'],
          answerLine "password".toList "Auth".toList (openVpnEscape pw) ++ ['\n']] := by
  obtain ⟨argument, args, hline, hquoted, hfailed⟩ := exists_of_asksFor hasks
  refine ⟨s.processPWCommand argument, ?_, ?_, ?_⟩
  · rw [processCommand, hline]
    rfl
  all_goals
    rw [processPWCommand, hquoted]
    dsimp only
    rw [if_neg (hfailed ▸ Bool.false_ne_true), if_neg (by decide), if_pos rfl, managmentCommands]
  rw [hpw]
  exact if_pos hsocket

end Session

/-- **What is read of a password.** After every run of the thread, a request for a password is
answered with the password that is due then: a transient one once, and the one of the profile from
then on. `parseline` reads the password that is meant from the line exactly if it survives
`openVpnEscape`, and so it is with the user name on the line before. -/
theorem passwordRequest_read_iff {s₀ : Session} {ls : List (Surroundings × Text)}
    {env : Surroundings} {command needed pw : Text} (hasks : asksFor needed command = true)
    (hsocket : (Machine.stateAfter s₀ (sessionMachine.history s₀ ls)).thread.mSocket = true)
    (hpw : s₀.profile.passwordFor ((sessionMachine.history s₀ ls).map fun x => x.label.2) needed =
      some pw) (h0 : '\x00' ∉ pw) :
    ∃ p users line,
      (Machine.stateAfter s₀ (sessionMachine.history s₀ ls)).processCommand env command = some p ∧
      p.thrown = false ∧ received p.written.flatten = users ++ [line] ∧
      (parseline line = .ok ["password".toList, needed, pw] ↔ Survives pw) ∧
      (needed = "Private Key".toList → users = []) ∧
      (needed = "Auth".toList → ∃ u, users = [u] ∧
        ∀ user, s₀.profile.mUsername = some user → '\x00' ∉ user →
          (parseline u = .ok ["username".toList, needed, user] ↔ Survives user)) := by
  have hprofile := profile_stateAfter s₀ ls
  rw [Credentials.foldl_after] at hprofile
  rw [Credentials.passwordFor] at hpw
  have hread : '\'' ∉ needed → '\x00' ∉ needed →
      (parseline (answerLine "password".toList needed (openVpnEscape pw)) =
        .ok ["password".toList, needed, pw] ↔ Survives pw) := fun hn hn0 =>
    parseline_answer_iff (by decide) hn hn0 h0
  have hline : ∀ needed, '\n' ∉ needed →
      '\n' ∉ answerLine "password".toList needed (openVpnEscape pw) := fun needed hn =>
    newline_notMem_answerLine (by decide) hn (newline_notMem_openVpnEscape pw)
  by_cases hkey : needed = "Private Key".toList
  · subst hkey
    rw [if_pos rfl, ← hprofile] at hpw
    obtain ⟨p, hp, hthrown, hwritten⟩ := Session.processCommand_privateKey hasks hsocket hpw
    refine ⟨p, [], _, hp, hthrown, ?_, hread (by decide) (by decide), fun _ => rfl,
      fun h => absurd h (by decide)⟩
    rw [hwritten, List.flatten_singleton, received_cons (hline _ (by decide))]
    rfl
  · rw [if_neg hkey] at hpw
    by_cases hauth : needed = "Auth".toList
    · subst hauth
      rw [if_pos rfl, ← hprofile] at hpw
      obtain ⟨p, hp, hthrown, hwritten⟩ := Session.processCommand_auth hasks hsocket hpw
      have huser : (Machine.stateAfter s₀ (sessionMachine.history s₀ ls)).profile.mUsername =
          s₀.profile.mUsername := by
        rw [hprofile]
        rfl
      rw [huser] at hwritten
      have hnl : '\n' ∉ (s₀.profile.mUsername.map openVpnEscape).getD "null".toList := by
        cases s₀.profile.mUsername with
        | none => decide
        | some user => exact newline_notMem_openVpnEscape user
      refine ⟨p, [answerLine "username".toList "Auth".toList
        ((s₀.profile.mUsername.map openVpnEscape).getD "null".toList)], _, hp, hthrown, ?_,
        hread (by decide) (by decide), fun h => absurd h (by decide), fun _ => ⟨_, rfl, ?_⟩⟩
      · rw [hwritten, List.flatten_cons, List.flatten_singleton, List.append_assoc,
          List.singleton_append, received_cons (newline_notMem_answerLine (by decide) (by decide) hnl),
          received_cons (hline _ (by decide))]
        rfl
      · intro user hsome h0user
        rw [hsome]
        exact parseline_answer_iff (by decide) (by decide) (by decide) h0user
    · rw [if_neg hauth] at hpw
      exact nomatch hpw

/-- A password that is due once, and a name with a blank in it. -/
def once : Session where
  thread := { mSocket := true }
  profile := { mUsername := some "a b".toList, mTransientPW := some "x\ty".toList,
               mPassword := some "secret".toList }

def authRequest : Text := ">PASSWORD:Need 'Auth' username/password".toList

/-- The first request is answered with the transient password, which is cut at its tabulator; the
second one with the password of the profile. -/
theorem passwordRequest_read_once :
    (∃ p users line, once.processCommand quiet authRequest = some p ∧
      received p.written.flatten = users ++ [line] ∧
      parseline line ≠ .ok ["password".toList, "Auth".toList, "x\ty".toList]) ∧
    ∃ p users line, (Machine.stateAfter once
        (sessionMachine.history once [(quiet, authRequest)])).processCommand quiet authRequest =
          some p ∧
      received p.written.flatten = users ++ [line] ∧
      parseline line = .ok ["password".toList, "Auth".toList, "secret".toList] := by
  constructor
  · obtain ⟨p, users, line, hp, -, hreceived, hread, -⟩ :=
      @passwordRequest_read_iff once [] quiet authRequest "Auth".toList "x\ty".toList
        (by decide) (by decide) (by decide) (by decide)
    exact ⟨p, users, line, hp, hreceived, fun h => absurd (hread.1 h) (by decide)⟩
  · obtain ⟨p, users, line, hp, -, hreceived, hread, -⟩ :=
      @passwordRequest_read_iff once [(quiet, authRequest)] quiet authRequest "Auth".toList
        "secret".toList (by decide) (by decide) (by decide) (by decide)
    exact ⟨p, users, line, hp, hreceived, hread.2 (by decide)⟩

end PortVpn.Management
