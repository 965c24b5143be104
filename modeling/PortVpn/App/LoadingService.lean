import PortVpn.Config.ConvertProfile
import PortVpn.Lib.Memo

/-!
# The profiles of the server list

`LoadingService.getProfile` downloads and imports the configuration of an entry of the server list,
and keeps the profile under the entry's name. `getProfile_transparent_iff` says when the profiles
that it emits are those of the entries themselves: a name must stand for one configuration, one user
and one server for as long as the application runs.
-/

set_option autoImplicit false

namespace PortVpn.App

open PortVpn.Lib PortVpn.Config

/-- `Vpn`, with the fields that `getProfile` reads. -/
structure Vpn where
  name : Text
  url : Text
  username : Text
  password : Text
  server_name : Text
  search_domain : Text
  deriving DecidableEq, Repr

/-- `LoadingService.getStringFromUrl`, from what is behind the URL: every line with a newline. -/
def getStringFromUrl (content : Text) : Text := (readLines content).flatMap (· ++ "\n".toList)

/-- What `parseConfig` and `getProfile` set in an imported profile. -/
def Vpn.setFields (vpn : Vpn) (vpnProfile : VpnProfile) : VpnProfile :=
  { vpnProfile with
    mName := vpn.name
    mUsername := some vpn.username
    mPassword := vpn.password
    mServerName := vpn.server_name
    mSearchDomain := vpn.search_domain }

section Service

/- What is behind the URLs, and the order in which the hash map of options is gone through. -/
variable (order : HashOrder) (content : Text → Text)

/-- The configuration behind the entry's URL, as it is imported. -/
def Vpn.imported (vpn : Vpn) : Except Thrown VpnProfile :=
  importConfig order (getStringFromUrl (content vpn.url))

/-- The profile that is downloaded and parsed for an entry. -/
def Vpn.profile (vpn : Vpn) : Except Thrown VpnProfile :=
  (vpn.imported order content).map vpn.setFields

/-- `LoadingService.getProfile`, with the cache: what is emitted, and the cache afterwards. -/
def getProfile (cache : List (Text × VpnProfile)) (vpn : Vpn) :
    Except Thrown VpnProfile × List (Text × VpnProfile) :=
  memo Vpn.name (Vpn.profile order content) cache vpn

/-- The cache after calls of `getProfile` from the start of the application on. -/
def cacheOf (calls : List Vpn) : List (Text × VpnProfile) :=
  cacheAfter Vpn.name (Vpn.profile order content) calls

/-- The entry whose profile is kept under a name: the first one with the name whose configuration
could be imported. -/
def keptEntry (calls : List Vpn) (name : Text) : Option Vpn :=
  calls.find? fun vpn => decide (vpn.name = name) && (vpn.imported order content).toOption.isSome

/-- The cache keeps the profile of that entry. -/
theorem filledBy_profile (calls : List Vpn) (name : Text) :
    filledBy Vpn.name (Vpn.profile order content) calls name =
      keptEntry order content calls name := by
  rw [filledBy, keptEntry]
  congr 1
  funext vpn
  rw [Vpn.profile]
  cases vpn.imported order content with
  | ok np => rfl
  | error e => rfl

/-! ## When entries have the same profile -/

/-- A profile without the fields that are set from the entry. -/
def settings (np : VpnProfile) : VpnProfile :=
  { np with mName := [], mUsername := none, mPassword := [], mServerName := [], mSearchDomain := [] }

/-- Two entries with the same user, server and imported settings. -/
structure Agree (w vpn : Vpn) : Prop where
  username : w.username = vpn.username
  password : w.password = vpn.password
  server_name : w.server_name = vpn.server_name
  search_domain : w.search_domain = vpn.search_domain
  settings : (w.imported order content).map settings = (vpn.imported order content).map settings

theorem setFields_settings (vpn : Vpn) (np : VpnProfile) :
    vpn.setFields (settings np) = vpn.setFields np := rfl

theorem settings_setFields (vpn : Vpn) (np : VpnProfile) :
    settings (vpn.setFields np) = settings np := rfl

variable {order content} in
/-- **Entries of one name** have the same profile if and only if they agree. -/
theorem profile_eq_iff {w vpn : Vpn} {np : VpnProfile} (hname : w.name = vpn.name)
    (hok : w.imported order content = .ok np) :
    vpn.profile order content = w.profile order content ↔ Agree order content w vpn := by
  rw [Vpn.profile, Vpn.profile, hok]
  constructor
  · intro heq
    cases hvpn : vpn.imported order content with
    | error e =>
        rw [hvpn] at heq
        cases heq
    | ok np' =>
        rw [hvpn] at heq
        have hprofile : vpn.setFields np' = w.setFields np := Except.ok.inj heq
        exact {
          username := (Option.some.inj (congrArg VpnProfile.mUsername hprofile)).symm
          password := (congrArg VpnProfile.mPassword hprofile).symm
          server_name := (congrArg VpnProfile.mServerName hprofile).symm
          search_domain := (congrArg VpnProfile.mSearchDomain hprofile).symm
          settings := by
            rw [hok, hvpn]
            have hsettings : settings np' = settings np := by
              rw [← settings_setFields vpn np', hprofile, settings_setFields]
            exact congrArg Except.ok hsettings.symm }
  · intro hagree
    have hsettings := hagree.settings
    rw [hok] at hsettings
    cases hvpn : vpn.imported order content with
    | error e =>
        rw [hvpn] at hsettings
        cases hsettings
    | ok np' =>
        rw [hvpn] at hsettings
        have hnp : settings np = settings np' := Except.ok.inj hsettings
        have hfields : vpn.setFields np' = w.setFields np := by
          rw [← setFields_settings vpn np', ← hnp, ← setFields_settings w np]
          simp only [Vpn.setFields, hname, hagree.username, hagree.password, hagree.server_name,
            hagree.search_domain]
        exact congrArg Except.ok hfields

/-- **The cache is transparent** for a sequence of calls if and only if every entry agrees with the
one whose profile was kept under its name before. -/
theorem getProfile_transparent_iff (calls : List Vpn) :
    (∀ before vpn after, calls = before ++ vpn :: after →
      ∀ np, (getProfile order content (cacheOf order content before) vpn).1 = .ok np →
        vpn.profile order content = .ok np) ↔
    ∀ before vpn after, calls = before ++ vpn :: after →
      ∀ w, keptEntry order content before vpn.name = some w → Agree order content w vpn := by
  have hagree : ∀ (before : List Vpn) (vpn w : Vpn),
      filledBy Vpn.name (Vpn.profile order content) before vpn.name = some w →
      (vpn.profile order content = w.profile order content ↔ Agree order content w vpn) := by
    intro before vpn w hw
    obtain ⟨hname, -⟩ := of_filledBy hw
    rw [filledBy_profile] at hw
    have hsome := List.find?_some hw
    simp only [Bool.and_eq_true] at hsome
    obtain ⟨np, hnp⟩ := Option.isSome_iff_exists.1 hsome.2
    cases hok : w.imported order content with
    | ok np => exact profile_eq_iff hname hok
    | error e =>
        rw [hok] at hnp
        cases hnp
  refine (@memo_transparent_iff _ _ _ _ _ Vpn.name (Vpn.profile order content) calls).trans ?_
  constructor
  · intro h before vpn after hcalls w hw
    rw [← filledBy_profile] at hw
    exact (hagree before vpn w hw).1 (h before vpn after hcalls w hw)
  · intro h before vpn after hcalls w hw
    refine (hagree before vpn w hw).2 (h before vpn after hcalls w ?_)
    rw [← filledBy_profile]
    exact hw

end Service

/-- **A password that has changed.** The second call emits the profile of the first one, with the
old password. -/
theorem getProfile_transparent_counterexample :
    ¬ ∀ (order : HashOrder) (content : Text → Text) (calls before after : List Vpn) (vpn : Vpn),
      calls = before ++ vpn :: after →
      ∀ np, (getProfile order content (cacheOf order content before) vpn).1 = .ok np →
        vpn.profile order content = .ok np := by
  intro h
  let order := insertionOrder
  let content : Text → Text := fun _ => "client\ndev tun\nremote vpn.example.com\n".toList
  let old : Vpn := ⟨"fast".toList, [], "u".toList, "old".toList, [], []⟩
  let new : Vpn := ⟨"fast".toList, [], "u".toList, "new".toList, [], []⟩
  obtain ⟨np, hnp⟩ : ∃ np, old.imported order content = .ok np := by
    have hok : (old.imported order content).toOption.isSome := by decide +kernel
    cases himported : old.imported order content with
    | ok np => exact ⟨np, rfl⟩
    | error e =>
        rw [himported] at hok
        cases hok
  have hprofile : ∀ vpn : Vpn, vpn.profile order content = .ok (vpn.setFields np) := fun vpn =>
    congrArg (Except.map vpn.setFields) hnp
  -- the first call puts its profile into the cache
  have hfilled : filledBy Vpn.name (Vpn.profile order content) [old] new.name = some old := by
    rw [filledBy, List.find?_cons_of_pos]
    rw [hprofile old]
    rfl
  have hemitted : (getProfile order content (cacheOf order content [old]) new).1 =
      .ok (old.setFields np) := memo_of_filledBy hfilled (hprofile old)
  have heq := h order content [old, new] [old] [] new rfl _ hemitted
  rw [hprofile new] at heq
  have hpassword : new.password = old.password := congrArg VpnProfile.mPassword (Except.ok.inj heq)
  exact absurd hpassword (by decide)

end PortVpn.App
