import PortVpn.App.LoadingService
import PortVpn.Lib.Machine

/-!
# Which servers an account may use

`MainActivity.connectVPN` checks an entry of the server list against the account: a premium server is
not for a free account, and a VIP server only for a VIP account. A free account that takes a server
for everybody is asked first, and its connection is counted and limited: `start_free_service` starts
the service that ends it. Between the check and the start of the VPN lie a dialog, a request to the
server, the download of the configuration and the consent of the user, and meanwhile other entries
can be chosen and the account can change.

In every run, each VPN that is started is one that was checked when its configuration was asked for;
and when that was done for a free account, the time is limited exactly for the servers whose codes
are both zero (`gate`).
-/

set_option autoImplicit false

namespace PortVpn.App

open PortVpn.Lib

/-! ## The source -/

/-- An entry of the server list, with the codes that say for whom it is. -/
structure ServerEntry extends Vpn where
  premium : Int
  vip : Int
  deriving DecidableEq, Repr

/-- A profile that `LoadingService.getProfile` has emitted for an entry. -/
structure EmittedProfile where
  entry : ServerEntry
  uuid : Text
  deriving DecidableEq, Repr

def modeFree : Text := "Free".toList
def modeVIP : Text := "VIP".toList

/-- `MainActivity`, with the dialogs that are shown, the requests that are not answered, the profiles
that are being loaded and the number of times the user is asked for consent. -/
structure MainActivity where
  account_mode : Text
  data : List ServerEntry := []
  dialogs : List ServerEntry := []
  requests : List ServerEntry := []
  loads : List ServerEntry := []
  vpnProfile : Option EmittedProfile := none
  consents : Nat := 0
  paused : Bool := false
  isVPNActive : Bool := false
  lastConnected : Option Text := none
  current_connected : Text := "44".toList
  deriving DecidableEq, Repr

/-- What the user, the server and the VPN do. -/
inductive MainEvent where
  | setAccountMode (account_mode : Text)
  | showList (data : List ServerEntry)
  | tap (vpn : ServerEntry)
  | connectBtn (r : Nat)
  | upgrade (vpn : ServerEntry)
  | ok (vpn : ServerEntry)
  | dismiss (vpn : ServerEntry)
  | onResponse (vpn : ServerEntry)
  | onErrorResponse (vpn : ServerEntry)
  | openProfile (vpn : ServerEntry) (uuid : Text) (prepared : Bool)
  | onError (vpn : ServerEntry)
  | onActivityResult (resultOk : Bool)
  | vpnStatus (isVPNActive : Bool) (lastConnected : Option Text)
  | stateConnected
  | statePaused
  deriving DecidableEq, Repr

/-- What the activity does to the outside. -/
inductive MainOut where
  | confirmFree (vpn : ServerEntry)
  | buyPremium
  | storeConnectCount (vpn : ServerEntry)
  | startFreeService
  | getProfile (vpn : ServerEntry)
  | resumeVPN
  | disconnectVPN
  | askDisconnect
  | askConsent
  | startVPN (profile : EmittedProfile)
  | showError
  | thrown
  deriving DecidableEq, Repr

/-- The account may use the server. -/
def Allowed (account_mode : Text) (vpn : ServerEntry) : Prop :=
  (vpn.premium = 1 → account_mode ≠ modeFree) ∧ (vpn.vip = 1 → account_mode = modeVIP)

/-- Both codes of the server are zero. -/
def ForEverybody (vpn : ServerEntry) : Prop := vpn.premium = 0 ∧ vpn.vip = 0

namespace MainActivity

open Machine

def start_vpn_now_now (s : MainActivity) (vpn : ServerEntry) : MainActivity × List MainOut :=
  ({ s with loads := s.loads ++ [vpn] }, [.getProfile vpn])

/-- `showInterPopupAdAppodeal`, which shows no advertisement, and `do_tell_server_connects`. -/
def do_tell_server_connects (s : MainActivity) (vpn : ServerEntry) : MainActivity × List MainOut :=
  ({ s with requests := s.requests ++ [vpn] }, [.storeConnectCount vpn])

/-- The checks that are made when an entry is chosen, and again when the dialog is confirmed. -/
def checked (s : MainActivity) (vpn : ServerEntry) (allowed : MainActivity × List MainOut) :
    MainActivity × List MainOut :=
  if vpn.premium = 1 ∧ s.account_mode = modeFree then (s, [.buyPremium])
  else if vpn.vip = 1 ∧ s.account_mode ≠ modeVIP then (s, [.buyPremium])
  else allowed

def connectVPN (s : MainActivity) (vpn : ServerEntry) : MainActivity × List MainOut :=
  if vpn.vip = 0 ∧ vpn.premium = 0 ∧ s.account_mode = modeFree then
    ({ s with dialogs := s.dialogs ++ [vpn] }, [.confirmFree vpn])
  else s.checked vpn (s.start_vpn_now_now vpn)

/-- The names that the button chooses from. -/
def freeNames (data : List ServerEntry) : List Text :=
  (data.filter fun vpn => vpn.premium ≠ 1 ∧ vpn.vip ≠ 1).map fun vpn => vpn.name

/-- The click on the button, with the random number that is drawn for it. -/
def onConnectBtn (s : MainActivity) (r : Nat) : Option (MainActivity × List MainOut) :=
  if s.isVPNActive then some (s, [.askDisconnect])
  -- `nextInt(0)` throws
  else if freeNames s.data = [] then some (s, [.thrown])
  else
    (freeNames s.data)[r]?.map fun vpnProfile =>
      match s.data.find? (·.name == vpnProfile) with
      | some vpn => s.connectVPN vpn
      | none => (s, [])

/-- `openProfile` and `startOrStopVPN`. `prepared` says that `VpnService.prepare` asks for no
consent. -/
def openProfile (s : MainActivity) (profile : EmittedProfile) (prepared : Bool) :
    MainActivity × List MainOut :=
  let s := { s with vpnProfile := some profile, current_connected := profile.entry.name }
  if s.paused then ({ s with paused := false }, [.resumeVPN])
  else if s.isVPNActive ∧ s.lastConnected = some profile.uuid then (s, [.disconnectVPN])
  else
    let s := { s with lastConnected := some profile.uuid }
    if prepared then (s, [.startVPN profile])
    else ({ s with consents := s.consents + 1 }, [.askConsent])

/-- One event. A dialog, a request or a download ends once. -/
def step : Machine MainActivity MainEvent MainOut := fun s e =>
  match e with
  | .setAccountMode account_mode => some ({ s with account_mode }, [])
  | .showList data => some ({ s with data }, [])
  | .tap vpn => if vpn ∈ s.data then some (s.connectVPN vpn) else none
  | .connectBtn r => s.onConnectBtn r
  | .upgrade vpn =>
      if vpn ∈ s.dialogs then some ({ s with dialogs := s.dialogs.erase vpn }, [.buyPremium])
      else none
  | .ok vpn =>
      if vpn ∈ s.dialogs then
        let s := { s with dialogs := s.dialogs.erase vpn }
        some (s.checked vpn (s.do_tell_server_connects vpn))
      else none
  | .dismiss vpn =>
      if vpn ∈ s.dialogs then some ({ s with dialogs := s.dialogs.erase vpn }, []) else none
  | .onResponse vpn =>
      if vpn ∈ s.requests then
        let started := { s with requests := s.requests.erase vpn }.start_vpn_now_now vpn
        some (started.1, .startFreeService :: started.2)
      else none
  | .onErrorResponse vpn =>
      if vpn ∈ s.requests then
        some ({ s with requests := s.requests.erase vpn }, [.showError])
      else none
  | .openProfile vpn uuid prepared =>
      if vpn ∈ s.loads then
        some ({ s with loads := s.loads.erase vpn }.openProfile ⟨vpn, uuid⟩ prepared)
      else none
  | .onError vpn =>
      if vpn ∈ s.loads then some ({ s with loads := s.loads.erase vpn }, [.showError]) else none
  | .onActivityResult resultOk =>
      match s.consents, s.vpnProfile with
      | n + 1, some profile =>
          some ({ s with consents := n }, if resultOk then [.startVPN profile] else [])
      | _, _ => none
  | .vpnStatus isVPNActive lastConnected => some ({ s with isVPNActive, lastConnected }, [])
  | .stateConnected => some ({ s with paused := false }, [])
  | .statePaused => some ({ s with paused := true }, [])

/-! ## What a method does -/

variable {s : MainActivity}

theorem checked_cases (s : MainActivity) (vpn : ServerEntry)
    (allowed : MainActivity × List MainOut) :
    s.checked vpn allowed = (s, [.buyPremium]) ∨
      s.checked vpn allowed = allowed ∧ Allowed s.account_mode vpn := by
  rw [checked]
  split
  · exact Or.inl rfl
  · rename_i hpremium
    split
    · exact Or.inl rfl
    · rename_i hvip
      exact Or.inr ⟨rfl, fun h hmode => hpremium ⟨h, hmode⟩,
        fun h => by_contra fun hmode => hvip ⟨h, hmode⟩⟩

/-- Choosing an entry shows the dialog, offers the other accounts, or asks for the configuration. -/
theorem connectVPN_cases (s : MainActivity) (vpn : ServerEntry) :
    (s.connectVPN vpn = ({ s with dialogs := s.dialogs ++ [vpn] }, [.confirmFree vpn]) ∧
        ForEverybody vpn) ∨
      s.connectVPN vpn = (s, [.buyPremium]) ∨
      (s.connectVPN vpn = s.start_vpn_now_now vpn ∧ Allowed s.account_mode vpn ∧
        (s.account_mode = modeFree → ¬ ForEverybody vpn)) := by
  rw [connectVPN]
  split
  · rename_i h
    exact Or.inl ⟨rfl, h.2.1, h.1⟩
  · rename_i h
    rcases s.checked_cases vpn (s.start_vpn_now_now vpn) with hbuy | ⟨hstart, hallowed⟩
    · exact Or.inr (Or.inl hbuy)
    · exact Or.inr (Or.inr ⟨hstart, hallowed, fun hmode hall => h ⟨hall.2, hall.1, hmode⟩⟩)

/-- Opening a profile changes no queue, and starts at most this profile. -/
theorem openProfile_spec (s : MainActivity) (profile : EmittedProfile) (prepared : Bool) :
    let r := s.openProfile profile prepared
    r.1.dialogs = s.dialogs ∧ r.1.requests = s.requests ∧ r.1.loads = s.loads ∧
      r.1.vpnProfile = some profile ∧
      (r.2 = [.resumeVPN] ∨ r.2 = [.disconnectVPN] ∨ r.2 = [.askConsent] ∨
        r.2 = [.startVPN profile]) := by
  unfold openProfile
  dsimp only
  split
  · simp
  · split
    · simp
    · split
      · simp
      · simp

/-! ## One step -/

/-- The dialogs and the requests are about servers for everybody. -/
structure Waiting (s : MainActivity) : Prop where
  dialogs : ∀ vpn ∈ s.dialogs, ForEverybody vpn
  requests : ∀ vpn ∈ s.requests, ForEverybody vpn

/-- What a step does about the servers: which configuration it asks for, which one it waits for, and
what it opens and starts. -/
structure Gated (x : Step MainActivity MainEvent MainOut) : Prop where
  waiting : x.post.Waiting
  asks : ∀ vpn, .getProfile vpn ∈ x.out → Allowed x.pre.account_mode vpn ∧
    (x.pre.account_mode = modeFree → (.startFreeService ∈ x.out ↔ ForEverybody vpn))
  loads : ∀ vpn ∈ x.post.loads, vpn ∈ x.pre.loads ∨ .getProfile vpn ∈ x.out
  opens : ∀ p, x.post.vpnProfile = some p → x.pre.vpnProfile = some p ∨ p.entry ∈ x.pre.loads
  starts : ∀ p, .startVPN p ∈ x.out → x.pre.vpnProfile = some p ∨ p.entry ∈ x.pre.loads

section

variable {pre post : MainActivity} {l : MainEvent} {out : List MainOut}

/-- A step that asks for no configuration and opens nothing. -/
theorem gated_quiet (hwaiting : pre.Waiting) (hdialogs : post.dialogs ⊆ pre.dialogs)
    (hrequests : ∀ vpn ∈ post.requests, vpn ∈ pre.requests ∨ ForEverybody vpn)
    (hloads : post.loads ⊆ pre.loads) (hprofile : post.vpnProfile = pre.vpnProfile)
    (hasks : ∀ vpn, .getProfile vpn ∉ out)
    (hstarts : ∀ p, .startVPN p ∈ out → pre.vpnProfile = some p) :
    Gated ⟨pre, l, post, out⟩ where
  waiting :=
    ⟨fun vpn hvpn => hwaiting.dialogs vpn (hdialogs hvpn),
      fun vpn hvpn => (hrequests vpn hvpn).elim (hwaiting.requests vpn) id⟩
  asks vpn hvpn := absurd hvpn (hasks vpn)
  loads _ hvpn := Or.inl (hloads hvpn)
  opens _ hp := Or.inl (hprofile.symm.trans hp)
  starts p hp := Or.inl (hstarts p hp)

/-- A choice in the list. -/
theorem gated_connectVPN {vpn : ServerEntry} (hwaiting : pre.Waiting)
    (h : pre.connectVPN vpn = (post, out)) : Gated ⟨pre, l, post, out⟩ := by
  rcases pre.connectVPN_cases vpn with ⟨hask, hall⟩ | hbuy | ⟨hstart, hallowed, hnot⟩
  · obtain ⟨rfl, rfl⟩ := Prod.mk.inj (hask.symm.trans h)
    exact {
      waiting := by
        refine ⟨fun v hv => ?_, hwaiting.requests⟩
        rcases List.mem_append.1 hv with hv | hv
        · exact hwaiting.dialogs v hv
        · exact List.mem_singleton.1 hv ▸ hall
      asks := fun v hv => by simp at hv
      loads := fun v hv => Or.inl hv
      opens := fun p hp => Or.inl hp
      starts := fun p hp => by simp at hp }
  · obtain ⟨rfl, rfl⟩ := Prod.mk.inj (hbuy.symm.trans h)
    exact gated_quiet hwaiting (List.Subset.refl _) (fun v hv => Or.inl hv) (List.Subset.refl _)
      rfl (by simp) (by simp)
  · obtain ⟨rfl, rfl⟩ := Prod.mk.inj (hstart.symm.trans h)
    exact {
      waiting := ⟨hwaiting.dialogs, hwaiting.requests⟩
      asks := fun v hv => by
        obtain rfl : v = vpn := by simpa using hv
        exact ⟨hallowed, fun hmode => ⟨fun hfree => by simp at hfree,
          fun hall => absurd hall (hnot hmode)⟩⟩
      loads := fun v hv => by
        rcases List.mem_append.1 hv with hv | hv
        · exact Or.inl hv
        · exact Or.inr (List.mem_singleton.1 hv ▸ List.mem_cons_self)
      opens := fun p hp => Or.inl hp
      starts := fun p hp => by simp at hp }

/-- The answer to the request. -/
theorem gated_onResponse {vpn : ServerEntry} (hwaiting : pre.Waiting) (hvpn : vpn ∈ pre.requests) :
    Gated ⟨pre, l, { pre with requests := pre.requests.erase vpn, loads := pre.loads ++ [vpn] },
      [.startFreeService, .getProfile vpn]⟩ where
  waiting := ⟨hwaiting.dialogs, fun v hv => hwaiting.requests v (List.mem_of_mem_erase hv)⟩
  asks v hv := by
    obtain rfl : v = vpn := by simpa using hv
    obtain ⟨hpremium, hvip⟩ := hwaiting.requests v hvpn
    refine ⟨⟨fun h => ?_, fun h => ?_⟩, fun _ => ?_⟩
    · rw [hpremium] at h
      exact absurd h (by decide)
    · rw [hvip] at h
      exact absurd h (by decide)
    · simp [ForEverybody, hpremium, hvip]
  loads v hv := by
    rcases List.mem_append.1 hv with hv | hv
    · exact Or.inl hv
    · exact Or.inr (by simp [List.mem_singleton.1 hv])
  opens _ hp := Or.inl hp
  starts _ hp := by simp at hp

/-- A profile that was downloaded. -/
theorem gated_openProfile {vpn : ServerEntry} {uuid : Text} {prepared : Bool}
    (hwaiting : pre.Waiting) (hvpn : vpn ∈ pre.loads)
    (h : { pre with loads := pre.loads.erase vpn }.openProfile ⟨vpn, uuid⟩ prepared = (post, out)) :
    Gated ⟨pre, l, post, out⟩ := by
  obtain ⟨hdialogs, hrequests, hloads, hprofile, hout⟩ :=
    openProfile_spec { pre with loads := pre.loads.erase vpn } ⟨vpn, uuid⟩ prepared
  rw [h] at hdialogs hrequests hloads hprofile hout
  exact {
    waiting :=
      ⟨fun v hv => hwaiting.dialogs v (hdialogs ▸ hv), fun v hv => hwaiting.requests v (hrequests ▸ hv)⟩
    asks := fun v hv => by
      rcases hout with rfl | rfl | rfl | rfl <;> simp at hv
    loads := fun v hv => Or.inl (List.mem_of_mem_erase (hloads ▸ hv))
    opens := fun p hp => by
      obtain rfl := Option.some.inj (hprofile.symm.trans hp)
      exact Or.inr hvpn
    starts := fun p hp => by
      rcases hout with rfl | rfl | rfl | rfl
      · simp at hp
      · simp at hp
      · simp at hp
      · obtain rfl : p = ⟨vpn, uuid⟩ := by simpa using hp
        exact Or.inr hvpn }

end

/-- A button chooses as a tap does, or nothing happens to the queues. -/
theorem gated_onConnectBtn {pre post : MainActivity} {l : MainEvent} {out : List MainOut} {r : Nat}
    (hwaiting : pre.Waiting) (h : pre.onConnectBtn r = some (post, out)) :
    Gated ⟨pre, l, post, out⟩ := by
  have hquiet : ∀ o : MainOut, (∀ vpn, o ≠ .getProfile vpn) → (∀ p, o ≠ .startVPN p) →
      (pre, [o]) = (post, out) → Gated ⟨pre, l, post, out⟩ := by
    rintro o hask hstart heq
    obtain ⟨rfl, rfl⟩ := Prod.mk.inj heq
    refine gated_quiet hwaiting (List.Subset.refl _) (fun v hv => Or.inl hv) (List.Subset.refl _)
      rfl (fun v hv => ?_) (fun p hp => ?_)
    · exact absurd (List.mem_singleton.1 hv).symm (hask v)
    · exact absurd (List.mem_singleton.1 hp).symm (hstart p)
  rw [onConnectBtn] at h
  split at h
  · exact hquiet .askDisconnect (by simp) (by simp) (Option.some.inj h)
  · split at h
    · exact hquiet .thrown (by simp) (by simp) (Option.some.inj h)
    · obtain ⟨name, -, hname⟩ := Option.map_eq_some_iff.1 h
      split at hname
      · exact gated_connectVPN hwaiting hname
      · obtain ⟨rfl, rfl⟩ := Prod.mk.inj hname
        exact gated_quiet hwaiting (List.Subset.refl _) (fun v hv => Or.inl hv)
          (List.Subset.refl _) rfl (by simp) (by simp)

/-- Every step is gated. -/
theorem step_gated {x : Step MainActivity MainEvent MainOut} (hx : step.Takes x)
    (hwaiting : x.pre.Waiting) : Gated x := by
  obtain ⟨pre, l, post, out⟩ := x
  have h : step pre l = some (post, out) := hx
  cases l with
  | setAccountMode account_mode =>
      obtain ⟨rfl, rfl⟩ := Prod.mk.inj (Option.some.inj h)
      exact gated_quiet hwaiting (List.Subset.refl _) (fun v hv => Or.inl hv)
        (List.Subset.refl _) rfl (by simp) (by simp)
  | showList data =>
      obtain ⟨rfl, rfl⟩ := Prod.mk.inj (Option.some.inj h)
      exact gated_quiet hwaiting (List.Subset.refl _) (fun v hv => Or.inl hv)
        (List.Subset.refl _) rfl (by simp) (by simp)
  | vpnStatus isVPNActive lastConnected =>
      obtain ⟨rfl, rfl⟩ := Prod.mk.inj (Option.some.inj h)
      exact gated_quiet hwaiting (List.Subset.refl _) (fun v hv => Or.inl hv)
        (List.Subset.refl _) rfl (by simp) (by simp)
  | stateConnected =>
      obtain ⟨rfl, rfl⟩ := Prod.mk.inj (Option.some.inj h)
      exact gated_quiet hwaiting (List.Subset.refl _) (fun v hv => Or.inl hv)
        (List.Subset.refl _) rfl (by simp) (by simp)
  | statePaused =>
      obtain ⟨rfl, rfl⟩ := Prod.mk.inj (Option.some.inj h)
      exact gated_quiet hwaiting (List.Subset.refl _) (fun v hv => Or.inl hv)
        (List.Subset.refl _) rfl (by simp) (by simp)
  | connectBtn r => exact gated_onConnectBtn hwaiting h
  | tap vpn =>
      obtain ⟨-, htap⟩ := Option.ite_none_right_eq_some.1 h
      exact gated_connectVPN hwaiting (Option.some.inj htap)
  | upgrade vpn =>
      obtain ⟨-, hbuy⟩ := Option.ite_none_right_eq_some.1 h
      obtain ⟨rfl, rfl⟩ := Prod.mk.inj (Option.some.inj hbuy)
      exact gated_quiet hwaiting List.erase_subset (fun v hv => Or.inl hv) (List.Subset.refl _)
        rfl (by simp) (by simp)
  | dismiss vpn =>
      obtain ⟨-, hdismiss⟩ := Option.ite_none_right_eq_some.1 h
      obtain ⟨rfl, rfl⟩ := Prod.mk.inj (Option.some.inj hdismiss)
      exact gated_quiet hwaiting List.erase_subset (fun v hv => Or.inl hv) (List.Subset.refl _)
        rfl (by simp) (by simp)
  | ok vpn =>
      obtain ⟨hvpn, hok⟩ := Option.ite_none_right_eq_some.1 h
      have hall := hwaiting.dialogs vpn hvpn
      rcases checked_cases { pre with dialogs := pre.dialogs.erase vpn } vpn
        ({ pre with dialogs := pre.dialogs.erase vpn }.do_tell_server_connects vpn)
        with hbuy | ⟨htell, -⟩
      · obtain ⟨rfl, rfl⟩ := Prod.mk.inj (hbuy.symm.trans (Option.some.inj hok))
        exact gated_quiet hwaiting List.erase_subset (fun v hv => Or.inl hv) (List.Subset.refl _)
          rfl (by simp) (by simp)
      · obtain ⟨rfl, rfl⟩ := Prod.mk.inj (htell.symm.trans (Option.some.inj hok))
        refine gated_quiet hwaiting List.erase_subset (fun v hv => ?_) (List.Subset.refl _) rfl
          (by simp) (by simp)
        rcases List.mem_append.1 hv with hv | hv
        · exact Or.inl hv
        · exact Or.inr (List.mem_singleton.1 hv ▸ hall)
  | onResponse vpn =>
      obtain ⟨hvpn, hresponse⟩ := Option.ite_none_right_eq_some.1 h
      obtain ⟨rfl, rfl⟩ := Prod.mk.inj (Option.some.inj hresponse)
      exact gated_onResponse hwaiting hvpn
  | onErrorResponse vpn =>
      obtain ⟨-, herror⟩ := Option.ite_none_right_eq_some.1 h
      obtain ⟨rfl, rfl⟩ := Prod.mk.inj (Option.some.inj herror)
      exact gated_quiet hwaiting (List.Subset.refl _)
        (fun v hv => Or.inl (List.mem_of_mem_erase hv)) (List.Subset.refl _) rfl (by simp) (by simp)
  | openProfile vpn uuid prepared =>
      obtain ⟨hvpn, hopen⟩ := Option.ite_none_right_eq_some.1 h
      exact gated_openProfile hwaiting hvpn (Option.some.inj hopen)
  | onError vpn =>
      obtain ⟨-, herror⟩ := Option.ite_none_right_eq_some.1 h
      obtain ⟨rfl, rfl⟩ := Prod.mk.inj (Option.some.inj herror)
      exact gated_quiet hwaiting (List.Subset.refl _) (fun v hv => Or.inl hv) List.erase_subset rfl
        (by simp) (by simp)
  | onActivityResult resultOk =>
      change (match pre.consents, pre.vpnProfile with
        | n + 1, some profile =>
            some ({ pre with consents := n }, if resultOk then [.startVPN profile] else [])
        | _, _ => none) = some (post, out) at h
      split at h
      · rename_i hprofile
        obtain ⟨rfl, rfl⟩ := Prod.mk.inj (Option.some.inj h)
        refine gated_quiet hwaiting (List.Subset.refl _) (fun v hv => Or.inl hv)
          (List.Subset.refl _) rfl (fun v hv => ?_) (fun p hp => ?_)
        · split at hv <;> simp at hv
        · split at hp
          · rw [hprofile, List.mem_singleton.1 hp |> MainOut.startVPN.inj]
          · simp at hp
      · exact nomatch h

/-! ## Runs -/

/-- The configuration of the entry has been asked for, when the account was allowed to use it. -/
def Admitted (past : List (Step MainActivity MainEvent MainOut)) (vpn : ServerEntry) : Prop :=
  ∃ y ∈ past, .getProfile vpn ∈ y.out ∧ Allowed y.pre.account_mode vpn

theorem Admitted.concat {past : List (Step MainActivity MainEvent MainOut)} {vpn : ServerEntry}
    (h : Admitted past vpn) (x : Step MainActivity MainEvent MainOut) :
    Admitted (past ++ [x]) vpn := by
  obtain ⟨y, hy, hask⟩ := h
  exact ⟨y, List.mem_append_left _ hy, hask⟩

/-- What is waited for, and what was opened last, was admitted. -/
structure Traced (start : MainActivity) (past : List (Step MainActivity MainEvent MainOut)) :
    Prop where
  waiting : (stateAfter start past).Waiting
  loads : ∀ vpn ∈ (stateAfter start past).loads, Admitted past vpn
  opened : ∀ p, (stateAfter start past).vpnProfile = some p → Admitted past p.entry

/-- The activity as it is created. -/
def created (account_mode : Text) : MainActivity := { account_mode }

theorem traced_created (account_mode : Text) : Traced (created account_mode) [] where
  waiting := ⟨by simp [created], by simp [created]⟩
  loads := by simp [created]
  opened := by simp [created]

theorem traced_concat {start : MainActivity} {past : List (Step MainActivity MainEvent MainOut)}
    {x : Step MainActivity MainEvent MainOut} (hx : step.Takes x)
    (hpre : x.pre = stateAfter start past) (h : Traced start past) :
    Traced start (past ++ [x]) := by
  have hgated := step_gated hx (hpre ▸ h.waiting)
  refine ⟨?_, fun vpn hvpn => ?_, fun p hp => ?_⟩
  · rw [stateAfter_concat]
    exact hgated.waiting
  · rw [stateAfter_concat] at hvpn
    rcases hgated.loads vpn hvpn with hold | hask
    · exact (h.loads vpn (hpre ▸ hold)).concat x
    · exact ⟨x, by simp, hask, (hgated.asks vpn hask).1⟩
  · rw [stateAfter_concat] at hp
    rcases hgated.opens p hp with hold | hload
    · exact (h.opened p (hpre ▸ hold)).concat x
    · exact (h.loads p.entry (hpre ▸ hload)).concat x

/-- The property of a step after the steps before it: a configuration is asked for only if the
account may use the server, for a free account with a limit exactly where both codes are zero; and a
VPN is started only if its server was admitted. -/
structure Respects (past : List (Step MainActivity MainEvent MainOut))
    (x : Step MainActivity MainEvent MainOut) : Prop where
  asks : ∀ vpn, .getProfile vpn ∈ x.out → Allowed x.pre.account_mode vpn ∧
    (x.pre.account_mode = modeFree → (.startFreeService ∈ x.out ↔ ForEverybody vpn))
  starts : ∀ p, .startVPN p ∈ x.out → Admitted past p.entry

/-- The property of a run. -/
def RespectsGate (history : List (Step MainActivity MainEvent MainOut)) : Prop :=
  ∀ past x rest, history = past ++ x :: rest → Respects past x

/-- **The gate.** Every run respects it, in whatever order the user, the server and the downloads
come, and however the account changes meanwhile. -/
theorem gate (account_mode : Text) (es : List MainEvent) :
    RespectsGate (step.history (created account_mode) es) := by
  intro past x rest hhistory
  obtain ⟨hx, hpre, p, -, hpast⟩ := history_split hhistory
  have htraced : Traced (created account_mode) past := by
    rw [← hpast]
    exact past_inv (C := fun _ => True) (traced_created account_mode)
      (fun past x hx hpre h _ => traced_concat hx hpre h) fun _ _ => trivial
  have hgated := step_gated hx (hpre ▸ htraced.waiting)
  refine ⟨hgated.asks, fun q hq => ?_⟩
  rcases hgated.starts q hq with hopened | hload
  · exact htraced.opened q (hpre ▸ hopened)
  · exact htraced.loads q.entry (hpre ▸ hload)

end MainActivity

end PortVpn.App
