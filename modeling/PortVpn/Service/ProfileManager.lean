import PortVpn.Lib.JavaText
import PortVpn.Lib.Machine

/-!
# Profiles across restarts

`ProfileManager` keeps its profiles in three places: a map in memory, the set `vpnlist` in the
preferences, and a file for each profile. `MainActivity.openProfile` updates the first two, and
`saveProfile`, which writes the file, is a call of its own. `profiles_found_iff` says for which runs
of the app the connected profile is found again after a restart; `profiles_found_counterexample` is
the run that opens a profile and connects it.

The field `mLastConnectedVpn`, which no restart survives, is left out.
-/

set_option autoImplicit false

namespace PortVpn.Service

open PortVpn.Lib

/-- A profile: its UUID, its name and its other fields. -/
structure Profile (α : Type) where
  mUuid : Text
  mName : Option Text
  fields : α
  deriving DecidableEq, Repr

/-- The preferences and the files, which a restart leaves alone, and what is in memory: the map of
the instance, once there is one, and the temporary profile. -/
structure ProfileManager (α : Type) where
  vpnlist : Option (List Text) := none
  counter : Nat := 0
  lastConnectedProfile : Option Text := none
  alwaysOnVpn : Option Text := none
  files : Text → Option (Profile α) := fun _ => none
  profiles : Option (List (Profile α)) := none
  tmpprofile : Option (Profile α) := none

namespace ProfileManager

variable {α : Type}

/-! ## The map -/

/-- `HashMap.put` under the UUID of the profile. -/
def put (profiles : List (Profile α)) (p : Profile α) : List (Profile α) :=
  p :: profiles.filter fun q => q.mUuid ≠ p.mUuid

/-- `HashMap.remove`. -/
def removeKey (profiles : List (Profile α)) (uuid : Text) : List (Profile α) :=
  profiles.filter fun q => q.mUuid ≠ uuid

/-- `HashMap.keySet`. -/
def keySet (profiles : List (Profile α)) : List Text := profiles.map Profile.mUuid

/-! ## The files -/

/-- What is read after one file was written or deleted. -/
theorem update_eq_some {files : Text → Option (Profile α)} {key uuid : Text}
    {v : Option (Profile α)} {q : Profile α} (h : Function.update files key v uuid = some q) :
    (uuid = key ∧ v = some q) ∨ (uuid ≠ key ∧ files uuid = some q) := by
  rcases eq_or_ne uuid key with rfl | hne
  · rw [Function.update_self] at h
    exact .inl ⟨rfl, h⟩
  · rw [Function.update_of_ne hne] at h
    exact .inr ⟨hne, h⟩

/-! ## The methods -/

/-- `VpnProfile.upgradeProfile`, which leaves the UUID and the name alone. -/
def upgradeProfile (upgrade : α → α) (vp : Profile α) : Profile α :=
  { vp with fields := upgrade vp.fields }

/-- One round of the loop in `loadVPNList`. -/
def loadEntry (upgrade : α → α) (s : ProfileManager α) (profiles : List (Profile α))
    (vpnentry : Text) : List (Profile α) :=
  match s.files vpnentry with
  | none => profiles
  | some vp => if vp.mName = none then profiles else put profiles (upgradeProfile upgrade vp)

/-- `loadVPNList`. -/
def loadVPNList (upgrade : α → α) (s : ProfileManager α) : ProfileManager α :=
  { s with profiles := some ((s.vpnlist.getD []).foldl (loadEntry upgrade s) []) }

/-- `checkInstance`, also the whole of `getInstance`. -/
def checkInstance (upgrade : α → α) (s : ProfileManager α) : ProfileManager α :=
  match s.profiles with
  | none => s.loadVPNList upgrade
  | some _ => s

/-- `get` with one argument. -/
def getKey (s : ProfileManager α) (key : Option Text) : Option (Profile α) :=
  match s.tmpprofile, key with
  | some tmp, some key =>
      if tmp.mUuid = key then some tmp
      else s.profiles.bind fun profiles => profiles.find? fun p => p.mUuid = key
  | none, some key => s.profiles.bind fun profiles => profiles.find? fun p => p.mUuid = key
  | _, none => none

/-- `get` with two arguments. -/
def get (upgrade : α → α) (s : ProfileManager α) (profileUUID : Option Text) :
    ProfileManager α × Option (Profile α) :=
  (s.checkInstance upgrade, (s.checkInstance upgrade).getKey profileUUID)

/-- `getLastConnectedProfile`. -/
def getLastConnectedProfile (upgrade : α → α) (s : ProfileManager α) :
    ProfileManager α × Option (Profile α) :=
  match s.lastConnectedProfile with
  | some lastConnectedProfile => s.get upgrade (some lastConnectedProfile)
  | none => (s, none)

/-- `getAlwaysOnVPN`. -/
def getAlwaysOnVPN (upgrade : α → α) (s : ProfileManager α) :
    ProfileManager α × Option (Profile α) :=
  s.get upgrade s.alwaysOnVpn

/-- `setConnectedVpnProfile`; a profile that is `null` clears the preference. -/
def setConnectedVpnProfile (s : ProfileManager α) (connectedProfile : Option (Profile α)) :
    ProfileManager α :=
  { s with lastConnectedProfile := connectedProfile.map Profile.mUuid }

/-- `setConntectedVpnProfileDisconnected`. -/
def setConntectedVpnProfileDisconnected (s : ProfileManager α) : ProfileManager α :=
  { s with lastConnectedProfile := none }

/-- `saveProfileList`. -/
def saveProfileList (s : ProfileManager α) : ProfileManager α :=
  { s with vpnlist := some (keySet (s.profiles.getD [])), counter := s.counter + 1 }

/-- `addProfile`. -/
def addProfile (s : ProfileManager α) (profile : Profile α) : ProfileManager α :=
  { s with profiles := s.profiles.map fun profiles => put profiles profile }

/-- `saveProfile`. -/
def saveProfile (s : ProfileManager α) (profile : Profile α) : ProfileManager α :=
  { s with files := Function.update s.files profile.mUuid (some profile) }

/-- `removeProfile`, on the instance. -/
def removeProfile (upgrade : α → α) (s : ProfileManager α) (profile : Profile α) :
    ProfileManager α :=
  let s := s.checkInstance upgrade
  let vpnentry := profile.mUuid
  let s := { s with profiles := s.profiles.map fun profiles => removeKey profiles vpnentry }
  let s := s.saveProfileList
  { s with files := Function.update s.files vpnentry none }

/-- `MainActivity.openProfile` up to the start of the VPN. -/
def openProfile (upgrade : α → α) (s : ProfileManager α) (profile : Profile α) :
    ProfileManager α :=
  ((s.checkInstance upgrade).addProfile profile).saveProfileList

/-- The profile that `OpenVPNService.onStartCommand` finds, for the UUID of the intent or for an
intent without one. -/
def startProfile (upgrade : α → α) (s : ProfileManager α) (profileUUID : Option Text) :
    ProfileManager α × Option (Profile α) :=
  match profileUUID with
  | some profileUUID => s.get upgrade (some profileUUID)
  | none =>
      let r := s.getLastConnectedProfile upgrade
      match r.2 with
      | some mProfile => (r.1, some mProfile)
      | none => r.1.getAlwaysOnVPN upgrade

/-- `OpenVPNService.onStartCommand`: without an intent and a profile it stops. -/
def onStartCommand (upgrade : α → α) (s : ProfileManager α) (profileUUID : Option Text) :
    ProfileManager α :=
  let r := s.startProfile upgrade profileUUID
  if profileUUID = none ∧ r.2 = none then r.1 else r.1.setConnectedVpnProfile r.2

/-- The process is started again. -/
def restart (s : ProfileManager α) : ProfileManager α :=
  { s with profiles := none, tmpprofile := none }

end ProfileManager

/-! ## Runs -/

/-- The operations of the app. -/
inductive AppOp (α : Type) where
  | openProfile (profile : Profile α)
  | onStartCommand (profileUUID : Option Text)
  | saveProfile (profile : Profile α)
  | removeProfile (profile : Profile α)
  | setConntectedVpnProfileDisconnected
  | restart
  deriving DecidableEq, Repr

/-- The stores, and the UUIDs of the profiles that have been removed and not opened since. -/
structure AppState (α : Type) where
  manager : ProfileManager α
  removed : List Text := []

namespace AppState

variable {α : Type}

/-- One operation. -/
def step (upgrade : α → α) : Machine (AppState α) (AppOp α) Empty := fun s op =>
  some (match op with
    | .openProfile profile =>
        { manager := s.manager.openProfile upgrade profile
          removed := s.removed.filter fun uuid => uuid ≠ profile.mUuid }
    | .onStartCommand profileUUID =>
        { s with manager := s.manager.onStartCommand upgrade profileUUID }
    | .saveProfile profile => { s with manager := s.manager.saveProfile profile }
    | .removeProfile profile =>
        { manager := s.manager.removeProfile upgrade profile
          removed := profile.mUuid :: s.removed }
    | .setConntectedVpnProfileDisconnected =>
        { s with manager := s.manager.setConntectedVpnProfileDisconnected }
    | .restart => { s with manager := s.manager.restart }, [])

/-- The connected profile is found after a restart unless it was removed, and every listed profile
has a file. -/
structure Found (upgrade : α → α) (s : AppState α) : Prop where
  lastConnected : ∀ uuid, s.manager.lastConnectedProfile = some uuid → uuid ∉ s.removed →
    ∃ p, (s.manager.restart.getLastConnectedProfile upgrade).2 = some p ∧ p.mUuid = uuid
  files : ∀ uuid ∈ s.manager.vpnlist.getD [], s.manager.files uuid ≠ none

/-- A file without a name is stored for the UUID. `loadVPNList` skips it. -/
def Nameless (s : ProfileManager α) (uuid : Text) : Prop :=
  ∃ q, s.files uuid = some q ∧ q.mName = none

/-- A profile is opened only when its file is stored already, and no profile is connected while
its file has no name. -/
def KeepsFiles (upgrade : α → α) (s : AppState α) : AppOp α → Prop
  | .openProfile profile =>
      s.manager.files profile.mUuid ≠ none ∧
        (s.manager.lastConnectedProfile = some profile.mUuid → ¬ Nameless s.manager profile.mUuid)
  | .onStartCommand profileUUID =>
      ∀ p ∈ (s.manager.startProfile upgrade profileUUID).2, ¬ Nameless s.manager p.mUuid
  | .saveProfile profile =>
      s.manager.lastConnectedProfile = some profile.mUuid → profile.mUuid ∉ s.removed →
        profile.mName ≠ none
  | _ => True

end AppState

/-! ## Keys of the map -/

namespace ProfileManager

variable {α : Type} {upgrade : α → α} {s : ProfileManager α} {uuid : Text}

theorem mem_keySet_put {profiles : List (Profile α)} {p : Profile α} :
    uuid ∈ keySet (put profiles p) ↔ uuid = p.mUuid ∨ uuid ∈ keySet profiles := by
  rw [put, keySet, List.map_cons, List.mem_cons]
  constructor
  · rintro (h | h)
    · exact .inl h
    · obtain ⟨q, hq, rfl⟩ := List.mem_map.1 h
      exact .inr (List.mem_map_of_mem (List.mem_filter.1 hq).1)
  · rintro (h | h)
    · exact .inl h
    · by_cases hp : uuid = p.mUuid
      · exact .inl hp
      · obtain ⟨q, hq, rfl⟩ := List.mem_map.1 h
        exact .inr (List.mem_map_of_mem (List.mem_filter.2 ⟨hq, decide_eq_true hp⟩))

theorem mem_keySet_removeKey {profiles : List (Profile α)} {key : Text} :
    uuid ∈ keySet (removeKey profiles key) ↔ uuid ∈ keySet profiles ∧ uuid ≠ key := by
  constructor
  · intro h
    obtain ⟨q, hq, rfl⟩ := List.mem_map.1 h
    obtain ⟨hq, hne⟩ := List.mem_filter.1 hq
    exact ⟨List.mem_map_of_mem hq, of_decide_eq_true hne⟩
  · rintro ⟨h, hne⟩
    obtain ⟨q, hq, rfl⟩ := List.mem_map.1 h
    exact List.mem_map_of_mem (List.mem_filter.2 ⟨hq, decide_eq_true hne⟩)

/-- The loop adds the profiles of the readable files that have a name. -/
theorem mem_keySet_loadEntry {vlist : List Text} {profiles : List (Profile α)} :
    uuid ∈ keySet (vlist.foldl (loadEntry upgrade s) profiles) ↔ uuid ∈ keySet profiles ∨
      ∃ e ∈ vlist, ∃ vp, s.files e = some vp ∧ vp.mName ≠ none ∧ vp.mUuid = uuid := by
  induction vlist generalizing profiles with
  | nil => simp
  | cons e vlist ih =>
      rw [List.foldl_cons, ih, List.exists_mem_cons_iff, ← or_assoc]
      refine or_congr_left ?_
      rw [loadEntry]
      split
      next hfile => simp [hfile]
      next vp hfile =>
        split
        next hname => simp [hfile, hname]
        next hname =>
          rw [mem_keySet_put, or_comm]
          simp [hfile, hname, upgradeProfile, eq_comm]

/-- `getKey` finds a profile with the key. -/
theorem getKey_mUuid {key : Text} {p : Profile α} (h : s.getKey (some key) = some p) :
    p.mUuid = key := by
  have hfind : ∀ {profiles : Option (List (Profile α))},
      (profiles.bind fun profiles => profiles.find? fun p => p.mUuid = key) = some p →
        p.mUuid = key := fun h => by
    obtain ⟨profiles, -, hp⟩ := Option.bind_eq_some_iff.1 h
    simpa using List.find?_some hp
  unfold getKey at h
  split at h
  next tmp key' _ heq =>
    obtain rfl := Option.some.inj heq
    split at h
    next htmp =>
      obtain rfl := Option.some.inj h
      exact htmp
    next => exact hfind h
  next key' _ heq =>
    obtain rfl := Option.some.inj heq
    exact hfind h
  next heq => exact nomatch heq

/-- Without a temporary profile `getKey` finds exactly the keys of the map. -/
theorem getKey_ne_none (htmp : s.tmpprofile = none) {profiles : List (Profile α)}
    (hs : s.profiles = some profiles) : s.getKey (some uuid) ≠ none ↔ uuid ∈ keySet profiles := by
  simp only [getKey, htmp, hs, Option.bind_some]
  rw [Option.ne_none_iff_isSome, List.find?_isSome, keySet, List.mem_map]
  simp

theorem getKey_none : s.getKey none = none := by
  unfold getKey
  cases s.tmpprofile <;> rfl

/-! ## The instance -/

/-- `checkInstance` leaves a map, the old one or that of the readable files of the list, and
changes nothing else. -/
theorem checkInstance_spec (upgrade : α → α) (s : ProfileManager α) :
    ∃ profiles, s.checkInstance upgrade = { s with profiles := some profiles } ∧
      (s.profiles = some profiles ∨ s.profiles = none ∧ ∀ uuid, uuid ∈ keySet profiles ↔
        ∃ e ∈ s.vpnlist.getD [], ∃ vp, s.files e = some vp ∧ vp.mName ≠ none ∧ vp.mUuid = uuid) := by
  rw [checkInstance]
  split
  next hnone =>
    refine ⟨_, rfl, .inr ⟨hnone, fun uuid => ?_⟩⟩
    rw [mem_keySet_loadEntry]
    simp [keySet]
  next profiles hsome => exact ⟨profiles, by rw [← hsome], .inl hsome⟩

theorem checkInstance_checkInstance (upgrade : α → α) (s : ProfileManager α) :
    (s.checkInstance upgrade).checkInstance upgrade = s.checkInstance upgrade := by
  obtain ⟨profiles, heq, -⟩ := checkInstance_spec upgrade s
  rw [heq]
  rfl

/-- Whatever the intent, `onStartCommand` looks up one key in the instance. -/
theorem startProfile_eq (upgrade : α → α) (s : ProfileManager α) (profileUUID : Option Text) :
    ∃ key, s.startProfile upgrade profileUUID =
      (s.checkInstance upgrade, (s.checkInstance upgrade).getKey key) := by
  unfold startProfile
  split
  next uuid => exact ⟨some uuid, rfl⟩
  next =>
    rw [getLastConnectedProfile]
    cases hlast : s.lastConnectedProfile with
    | none => exact ⟨s.alwaysOnVpn, rfl⟩
    | some uuid =>
        dsimp only [get]
        split
        next mProfile hfound => exact ⟨some uuid, by rw [hfound]⟩
        next =>
          refine ⟨(s.checkInstance upgrade).alwaysOnVpn, ?_⟩
          rw [getAlwaysOnVPN, get, checkInstance_checkInstance]

end ProfileManager

/-! ## The invariant -/

namespace AppState

variable {α : Type} {upgrade : α → α} {s : AppState α}

open ProfileManager

/-- What links the three stores: files carry their own UUID, the map is part of the list, listed
profiles have files and are not removed, and the connected profile is listed, in the map, and
stored with a name. -/
structure Inv (s : AppState α) : Prop where
  tmpprofile : s.manager.tmpprofile = none
  own : ∀ uuid q, s.manager.files uuid = some q → q.mUuid = uuid
  map : ∀ profiles, s.manager.profiles = some profiles →
    ∀ uuid ∈ keySet profiles, uuid ∈ s.manager.vpnlist.getD []
  files : ∀ uuid ∈ s.manager.vpnlist.getD [], s.manager.files uuid ≠ none
  kept : ∀ uuid ∈ s.manager.vpnlist.getD [], uuid ∉ s.removed
  connected : ∀ uuid, s.manager.lastConnectedProfile = some uuid → uuid ∉ s.removed →
    uuid ∈ s.manager.vpnlist.getD [] ∧ ¬ Nameless s.manager uuid ∧
      ∀ profiles, s.manager.profiles = some profiles → uuid ∈ keySet profiles

/-- After `checkInstance` there is a map, and the invariant still holds. -/
theorem Inv.checkInstance (h : Inv s) (upgrade : α → α) :
    ∃ profiles, s.manager.checkInstance upgrade = { s.manager with profiles := some profiles } ∧
      Inv { s with manager := { s.manager with profiles := some profiles } } := by
  obtain ⟨profiles, heq, hsame | ⟨hnone, hkeys⟩⟩ := checkInstance_spec upgrade s.manager
  · refine ⟨profiles, heq, ?_⟩
    rw [← hsame]
    exact h
  · refine ⟨profiles, heq, h.tmpprofile, h.own, ?_, h.files, h.kept, ?_⟩
    · intro profiles' hp uuid hu
      obtain rfl := Option.some.inj hp
      obtain ⟨e, he, vp, hfile, -, rfl⟩ := (hkeys uuid).1 hu
      rw [h.own e vp hfile]
      exact he
    · intro uuid hlast hrem
      obtain ⟨hlisted, hnamed, -⟩ := h.connected uuid hlast hrem
      refine ⟨hlisted, hnamed, fun profiles' hp => ?_⟩
      obtain rfl := Option.some.inj hp
      obtain ⟨vp, hfile⟩ := Option.ne_none_iff_exists'.1 (h.files uuid hlisted)
      exact (hkeys uuid).2 ⟨uuid, hlisted, vp, hfile, fun hname => hnamed ⟨vp, hfile, hname⟩,
        h.own uuid vp hfile⟩

/-- A profile that `onStartCommand` finds is in the map. -/
theorem Inv.startProfile (h : Inv s) (upgrade : α → α) (profileUUID : Option Text) :
    ∃ profiles, (s.manager.startProfile upgrade profileUUID).1 =
        { s.manager with profiles := some profiles } ∧
      Inv { s with manager := { s.manager with profiles := some profiles } } ∧
        ∀ p, (s.manager.startProfile upgrade profileUUID).2 = some p →
          p.mUuid ∈ keySet profiles := by
  obtain ⟨profiles, heq, hinv⟩ := h.checkInstance upgrade
  obtain ⟨key, hkey⟩ := startProfile_eq upgrade s.manager profileUUID
  rw [hkey, heq]
  refine ⟨profiles, rfl, hinv, fun p hp => ?_⟩
  cases key with
  | none => exact absurd (getKey_none.symm.trans hp) (by simp)
  | some key =>
      rw [getKey_mUuid hp]
      exact (getKey_ne_none hinv.tmpprofile rfl).1 fun hnone => nomatch hnone.symm.trans hp

/-- A profile is opened: it is in the map of the instance, and the map is the list. -/
theorem Inv.openProfile (h : Inv s) (upgrade : α → α) (profile : Profile α) :
    ∃ profiles, s.manager.openProfile upgrade profile = { s.manager with
        profiles := some (put profiles profile)
        vpnlist := some (keySet (put profiles profile))
        counter := s.manager.counter + 1 } ∧
      Inv { s with manager := { s.manager with profiles := some profiles } } := by
  obtain ⟨profiles, heq, hinv⟩ := h.checkInstance upgrade
  refine ⟨profiles, ?_, hinv⟩
  rw [ProfileManager.openProfile, heq]
  rfl

theorem Inv.own_saveProfile (h : Inv s) {profile : Profile α} (uuid : Text) (q : Profile α)
    (hq : (s.manager.saveProfile profile).files uuid = some q) : q.mUuid = uuid := by
  rcases update_eq_some hq with ⟨rfl, hsome⟩ | ⟨-, hq⟩
  · rw [Option.some.inj hsome]
  · exact h.own uuid q hq

/-! ## Steps -/

/-- After a restart the connected profile is found exactly if it is listed and stored with a
name. -/
theorem restart_lastConnected (upgrade : α → α)
    (hown : ∀ uuid q, s.manager.files uuid = some q → q.mUuid = uuid) {uuid : Text}
    (hlast : s.manager.lastConnectedProfile = some uuid) :
    (∃ p, (s.manager.restart.getLastConnectedProfile upgrade).2 = some p ∧ p.mUuid = uuid) ↔
      uuid ∈ s.manager.vpnlist.getD [] ∧ ∃ vp, s.manager.files uuid = some vp ∧ vp.mName ≠ none := by
  obtain ⟨profiles, heq, hsame | ⟨-, hkeys⟩⟩ := checkInstance_spec upgrade s.manager.restart
  · exact nomatch hsame
  · have hget : (s.manager.restart.getLastConnectedProfile upgrade).2 =
        { s.manager.restart with profiles := some profiles }.getKey (some uuid) := by
      have hrestart : s.manager.restart.lastConnectedProfile = some uuid := hlast
      rw [getLastConnectedProfile, hrestart]
      dsimp only [ProfileManager.get]
      rw [heq]
    rw [hget]
    have hiff : { s.manager.restart with profiles := some profiles }.getKey (some uuid) ≠ none ↔
        uuid ∈ keySet profiles := getKey_ne_none rfl rfl
    constructor
    · rintro ⟨p, hp, -⟩
      have hmem := hiff.1 fun hnone => nomatch hnone.symm.trans hp
      obtain ⟨e, he, vp, hfile, hname, rfl⟩ := (hkeys uuid).1 hmem
      obtain rfl := hown e vp hfile
      exact ⟨he, vp, hfile, hname⟩
    · rintro ⟨hlisted, vp, hfile, hname⟩
      have hfound := hiff.2 ((hkeys uuid).2 ⟨uuid, hlisted, vp, hfile, hname, hown uuid vp hfile⟩)
      obtain ⟨p, hp⟩ := Option.ne_none_iff_exists'.1 hfound
      exact ⟨p, hp, getKey_mUuid hp⟩

theorem found_of_inv (upgrade : α → α) (h : Inv s) : Found upgrade s where
  lastConnected uuid hlast hrem := by
    obtain ⟨hlisted, hnamed, -⟩ := h.connected uuid hlast hrem
    obtain ⟨vp, hfile⟩ := Option.ne_none_iff_exists'.1 (h.files uuid hlisted)
    exact (restart_lastConnected upgrade h.own hlast).2
      ⟨hlisted, vp, hfile, fun hname => hnamed ⟨vp, hfile, hname⟩⟩
  files := h.files

theorem inv_openProfile (h : Inv s) {profile : Profile α}
    (hop : KeepsFiles upgrade s (.openProfile profile)) :
    Inv { manager := s.manager.openProfile upgrade profile
          removed := s.removed.filter fun uuid => uuid ≠ profile.mUuid } := by
  obtain ⟨hfile, hnamed⟩ := hop
  obtain ⟨profiles, hopen, hinv⟩ := h.openProfile upgrade profile
  rw [hopen]
  have hrem : ∀ uuid, uuid ∈ s.removed.filter (fun uuid => uuid ≠ profile.mUuid) ↔
      uuid ∈ s.removed ∧ uuid ≠ profile.mUuid := by simp
  refine ⟨h.tmpprofile, h.own, ?_, ?_, ?_, ?_⟩
  · intro profiles' hp uuid hu
    obtain rfl := Option.some.inj hp
    exact hu
  · intro uuid hu
    rcases mem_keySet_put.1 hu with rfl | hu
    · exact hfile
    · exact h.files uuid (hinv.map profiles rfl uuid hu)
  · intro uuid hu hmem
    obtain ⟨hmem, hne⟩ := (hrem uuid).1 hmem
    exact h.kept uuid (hinv.map profiles rfl uuid ((mem_keySet_put.1 hu).resolve_left hne)) hmem
  · intro uuid hlast hnot
    by_cases hp : uuid = profile.mUuid
    · subst hp
      refine ⟨mem_keySet_put.2 (.inl rfl), hnamed hlast, fun profiles' hp => ?_⟩
      obtain rfl := Option.some.inj hp
      exact mem_keySet_put.2 (.inl rfl)
    · have hnot' : uuid ∉ s.removed := fun hmem => hnot ((hrem uuid).2 ⟨hmem, hp⟩)
      obtain ⟨-, hname, hkeys⟩ := hinv.connected uuid hlast hnot'
      refine ⟨mem_keySet_put.2 (.inr (hkeys profiles rfl)), hname, fun profiles' hp => ?_⟩
      obtain rfl := Option.some.inj hp
      exact mem_keySet_put.2 (.inr (hkeys profiles rfl))

theorem inv_onStartCommand (h : Inv s) {profileUUID : Option Text}
    (hop : KeepsFiles upgrade s (.onStartCommand profileUUID)) :
    Inv { s with manager := s.manager.onStartCommand upgrade profileUUID } := by
  obtain ⟨profiles, heq, hinv, hmem⟩ := h.startProfile upgrade profileUUID
  unfold onStartCommand
  dsimp only
  rw [heq]
  split
  · exact hinv
  · refine ⟨h.tmpprofile, h.own, hinv.map, h.files, h.kept, ?_⟩
    intro uuid hlast hrem
    obtain ⟨p, hp, rfl⟩ := Option.map_eq_some_iff.1 hlast
    have hkey := hmem p hp
    refine ⟨hinv.map profiles rfl _ hkey, hop p hp, fun profiles' hp => ?_⟩
    obtain rfl := Option.some.inj hp
    exact hkey

theorem inv_saveProfile (h : Inv s) {profile : Profile α}
    (hop : KeepsFiles upgrade s (.saveProfile profile)) :
    Inv { s with manager := s.manager.saveProfile profile } := by
  refine ⟨h.tmpprofile, h.own_saveProfile, h.map, fun uuid hu => ?_, h.kept,
    fun uuid hlast hrem => ?_⟩
  · rcases eq_or_ne uuid profile.mUuid with rfl | hne
    · exact ne_of_eq_of_ne (Function.update_self _ _ _) (Option.some_ne_none _)
    · exact ne_of_eq_of_ne (Function.update_of_ne hne _ _) (h.files uuid hu)
  · obtain ⟨hlisted, hnamed, hkeys⟩ := h.connected uuid hlast hrem
    refine ⟨hlisted, ?_, hkeys⟩
    rintro ⟨q, hq, hname⟩
    rcases update_eq_some hq with ⟨rfl, hsome⟩ | ⟨-, hq⟩
    · obtain rfl := Option.some.inj hsome
      exact hop hlast hrem hname
    · exact hnamed ⟨q, hq, hname⟩

theorem inv_removeProfile (h : Inv s) (profile : Profile α) :
    Inv { manager := s.manager.removeProfile upgrade profile
          removed := profile.mUuid :: s.removed } := by
  obtain ⟨profiles, heq, hinv⟩ := h.checkInstance upgrade
  have hremove : s.manager.removeProfile upgrade profile = { s.manager with
      profiles := some (removeKey profiles profile.mUuid)
      vpnlist := some (keySet (removeKey profiles profile.mUuid))
      counter := s.manager.counter + 1
      files := Function.update s.manager.files profile.mUuid none } := by
    rw [removeProfile, heq]
    rfl
  rw [hremove]
  refine ⟨h.tmpprofile, ?_, ?_, ?_, ?_, ?_⟩
  · intro uuid q hq
    rcases update_eq_some hq with ⟨-, hq⟩ | ⟨-, hq⟩
    · exact nomatch hq
    · exact h.own uuid q hq
  · intro profiles' hp uuid hu
    obtain rfl := Option.some.inj hp
    exact hu
  · intro uuid hu
    obtain ⟨hu, hne⟩ := mem_keySet_removeKey.1 hu
    exact ne_of_eq_of_ne (Function.update_of_ne hne _ _)
      (h.files uuid (hinv.map profiles rfl uuid hu))
  · intro uuid hu hmem
    obtain ⟨hu, hne⟩ := mem_keySet_removeKey.1 hu
    exact h.kept uuid (hinv.map profiles rfl uuid hu) ((List.mem_cons.1 hmem).resolve_left hne)
  · intro uuid hlast hrem
    obtain ⟨hne, hrem⟩ := not_or.1 (mt List.mem_cons.2 hrem)
    obtain ⟨-, hnamed, hkeys⟩ := hinv.connected uuid hlast hrem
    have hkey := mem_keySet_removeKey.2 ⟨hkeys profiles rfl, hne⟩
    refine ⟨hkey, ?_, fun profiles' hp => ?_⟩
    · rintro ⟨q, hq, hname⟩
      rcases update_eq_some hq with ⟨-, hq⟩ | ⟨-, hq⟩
      · exact nomatch hq
      · exact hnamed ⟨q, hq, hname⟩
    · obtain rfl := Option.some.inj hp
      exact hkey

/-- A step that keeps the files keeps the invariant. -/
theorem inv_step {op : AppOp α} {t : AppState α} {out : List Empty} (h : Inv s)
    (hop : KeepsFiles upgrade s op) (hstep : step upgrade s op = some (t, out)) : Inv t := by
  obtain ⟨rfl, -⟩ := Prod.ext_iff.1 (Option.some.inj hstep)
  cases op with
  | openProfile profile => exact inv_openProfile h hop
  | onStartCommand profileUUID => exact inv_onStartCommand h hop
  | saveProfile profile => exact inv_saveProfile h hop
  | removeProfile profile => exact inv_removeProfile h profile
  | setConntectedVpnProfileDisconnected =>
      exact ⟨h.tmpprofile, h.own, h.map, h.files, h.kept, fun _ hlast => nomatch hlast⟩
  | restart =>
      refine ⟨rfl, h.own, fun _ hp => (nomatch hp), h.files, h.kept, fun uuid hlast hrem => ?_⟩
      obtain ⟨hlisted, hnamed, -⟩ := h.connected uuid hlast hrem
      exact ⟨hlisted, hnamed, fun _ hp => (nomatch hp)⟩

/-- A connected profile that is found after a restart has no file without a name. -/
theorem named_of_found (hs : Found upgrade s)
    (hown : ∀ uuid q, s.manager.files uuid = some q → q.mUuid = uuid) {uuid : Text}
    (hlast : s.manager.lastConnectedProfile = some uuid) (hrem : uuid ∉ s.removed) :
    ¬ Nameless s.manager uuid := by
  obtain ⟨-, vp, hfile, hname⟩ :=
    (restart_lastConnected upgrade hown hlast).1 (hs.lastConnected uuid hlast hrem)
  rintro ⟨q, hq, hnone⟩
  obtain rfl := Option.some.inj (hfile.symm.trans hq)
  exact hname hnone

/-- A step after which the profiles are found has kept the files. -/
theorem keepsFiles_of_found {op : AppOp α} {t : AppState α} {out : List Empty} (h : Inv s)
    (hstep : step upgrade s op = some (t, out)) (ht : Found upgrade t) :
    KeepsFiles upgrade s op := by
  obtain ⟨rfl, -⟩ := Prod.ext_iff.1 (Option.some.inj hstep)
  cases op with
  | openProfile profile =>
      obtain ⟨profiles, hopen, -⟩ := h.openProfile upgrade profile
      dsimp only at ht
      rw [hopen] at ht
      refine ⟨ht.files _ (mem_keySet_put.2 (.inl rfl)), fun hlast => ?_⟩
      exact named_of_found ht h.own hlast (by simp)
  | onStartCommand profileUUID =>
      intro p hp
      obtain ⟨profiles, heq, hinv, hmem⟩ := h.startProfile upgrade profileUUID
      have hp : (s.manager.startProfile upgrade profileUUID).2 = some p := hp
      have hlisted := hinv.map profiles rfl _ (hmem p hp)
      have hstart : s.manager.onStartCommand upgrade profileUUID = { s.manager with
          profiles := some profiles
          lastConnectedProfile := some p.mUuid } := by
        rw [onStartCommand]
        dsimp only
        rw [heq, hp, if_neg (by simp)]
        rfl
      dsimp only at ht
      rw [hstart] at ht
      exact named_of_found ht h.own rfl (h.kept _ hlisted)
  | saveProfile profile =>
      intro hlast hrem hname
      exact named_of_found ht h.own_saveProfile hlast hrem
        ⟨profile, Function.update_self _ _ _, hname⟩
  | removeProfile profile => trivial
  | setConntectedVpnProfileDisconnected => trivial
  | restart => trivial

/-- The app after its installation. -/
def init (alwaysOnVpn : Option Text) : AppState α := { manager := { alwaysOnVpn := alwaysOnVpn } }

theorem inv_init (alwaysOnVpn : Option Text) : Inv (init alwaysOnVpn : AppState α) :=
  ⟨rfl, fun _ _ hq => (nomatch hq), fun _ hp => (nomatch hp), fun _ hu => (nomatch hu),
    fun _ hu => (nomatch hu), fun _ hlast => (nomatch hlast)⟩

/-- **When the profiles are found again.** In a run of the app the connected profile can be found
after a restart and every listed profile has a file, at every moment, exactly if a profile is opened
only when its file is stored and no profile without a name is stored under the connected one. -/
theorem profiles_found_iff (upgrade : α → α) (alwaysOnVpn : Option Text) (ops : List (AppOp α)) :
    (∀ x ∈ Machine.history (step upgrade) (init alwaysOnVpn) ops, Found upgrade x.post) ↔
      ∀ x ∈ Machine.history (step upgrade) (init alwaysOnVpn) ops,
        KeepsFiles upgrade x.pre x.label := by
  refine Machine.forall_history_iff (fun x hx hpre hop => ?_) (fun x hx hpre hpost => ?_)
    (inv_init alwaysOnVpn)
  · have hpost := inv_step hpre hop hx
    exact ⟨hpost, found_of_inv upgrade hpost⟩
  · exact keepsFiles_of_found hpre hx hpost

/-- A profile that the app opens and connects. -/
def server : Profile Unit := ⟨"8f14e45f".toList, some "Germany".toList, ()⟩

/-- **Opened and not saved**: the profile that `openProfile` lists and the service connects has no
file, and is not found after a restart. -/
theorem profiles_found_counterexample :
    ∃ ops, ∃ x ∈ Machine.history (step (id : Unit → Unit)) (init none) ops,
      x.post.manager.lastConnectedProfile = some server.mUuid ∧ server.mUuid ∉ x.post.removed ∧
        (x.post.manager.restart.getLastConnectedProfile id).2 = none ∧
          server.mUuid ∈ x.post.manager.vpnlist.getD [] ∧
            x.post.manager.files server.mUuid = none :=
  ⟨[.openProfile server, .onStartCommand (some server.mUuid)], _,
    List.getLast_mem (by simp [Machine.history, step]), by decide, by decide, by decide, by decide,
    rfl⟩

end AppState

end PortVpn.Service
