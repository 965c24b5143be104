import Mathlib.Data.List.Forall2
import PortVpn.Config.VpnProfile

/-!
# The check of a profile

`checkProfile` looks for errors in a profile before its configuration file is written. For the
routes it reads the texts as `getConfigFile` does, with a loop that stops at the first token that
is no route, and finds an error only when no token was read before. `checkProfile_sound_iff` says
what the file of a profile without errors has: everything the check stands for when all tokens are
routes, and too few routes otherwise.
-/

set_option autoImplicit false

namespace PortVpn.Config

open PortVpn.Lib

/-- `TextUtils.isEmpty`. -/
def textIsEmpty (str : Option Text) : Bool := str.all List.isEmpty

/-- The texts of `R.string` that `checkProfile` returns. -/
inductive CheckResult where
  | no_keystore_cert_selected
  | ipv4_format_error
  | custom_route_format_error
  | missing_tlsauth
  | missing_certificates
  | missing_ca_certificate
  | remote_no_server_selected
  | no_error_found
  deriving DecidableEq, Repr

export CheckResult (no_keystore_cert_selected ipv4_format_error custom_route_format_error
  missing_tlsauth missing_certificates missing_ca_certificate remote_no_server_selected
  no_error_found)

namespace VpnProfile

variable (np : VpnProfile)

/-- The private key is in the key store. -/
def UsesKeystore : Prop :=
  np.mAuthenticationType = TYPE_KEYSTORE ∨ np.mAuthenticationType = TYPE_USERPASS_KEYSTORE

instance : Decidable np.UsesKeystore := by
  rw [UsesKeystore]
  infer_instance

/-- Certificates are given as files. -/
def UsesCertificates : Prop :=
  np.mAuthenticationType = TYPE_CERTIFICATES ∨
    np.mAuthenticationType = TYPE_USERPASS_CERTIFICATES

instance : Decidable np.UsesCertificates := by
  rw [UsesCertificates]
  infer_instance

/-- `VpnProfile.checkProfile`, of a profile with the given `mAlias`. -/
def checkProfile (mAlias : Option Text) : CheckResult :=
  if np.UsesKeystore ∧ mAlias = none then no_keystore_cert_selected
  else if (!np.mUsePull ∨ np.mAuthenticationType = TYPE_STATICKEYS) ∧
      np.mIPv4Address.bind cidrToIPAndNetmask = none then ipv4_format_error
  else if !np.mUseDefaultRoute ∧ !textIsEmpty np.mCustomRoutes ∧
      getCustomRoutes np.mCustomRoutes = [] then custom_route_format_error
  else if !np.mUseDefaultRoute ∧ !textIsEmpty np.mExcludedRoutes ∧
      getCustomRoutes np.mExcludedRoutes = [] then custom_route_format_error
  else if np.mUseTLSAuth ∧ textIsEmpty np.mTLSAuthFilename then missing_tlsauth
  else if np.UsesCertificates ∧
      (textIsEmpty np.mClientCertFilename ∨ textIsEmpty np.mClientKeyFilename) then
    missing_certificates
  else if np.UsesCertificates ∧ textIsEmpty np.mCaFilename then missing_ca_certificate
  else if np.mConnections.all fun c => !c.mEnabled then remote_no_server_selected
  else no_error_found

/-- What the check has ruled out for a profile without errors. -/
theorem of_checkProfile {mAlias : Option Text} (h : np.checkProfile mAlias = no_error_found) :
    ((!np.mUsePull ∨ np.mAuthenticationType = TYPE_STATICKEYS) →
      ∃ addr address, np.mIPv4Address = some addr ∧ cidrToIPAndNetmask addr = some address) ∧
    ∃ c ∈ np.mConnections, c.mEnabled := by
  rw [checkProfile] at h
  split at h
  next => cases h
  next =>
    split at h
    next => cases h
    next haddr =>
      -- the later tests of routes and files say nothing about addresses and servers
      iterate 5
        split at h
        · cases h
      split at h
      next => cases h
      next hremote =>
        constructor
        · intro hneeded
          have hsome : np.mIPv4Address.bind cidrToIPAndNetmask ≠ none := by
            intro hnone
            exact haddr ⟨hneeded, hnone⟩
          obtain ⟨address, haddress⟩ := Option.ne_none_iff_exists'.1 hsome
          obtain ⟨addr, hadr, hcidr⟩ := Option.bind_eq_some_iff.1 haddress
          exact ⟨addr, address, hadr, hcidr⟩
        · simpa using hremote

end VpnProfile

/-! ## Tokens and the lines they become -/

/-- A line that routes the address in front of the token's slash through the gateway. -/
def IsRouteLine (gateway token line : Text) : Prop :=
  ∃ netmask, line = "route ".toList ++ (token.takeWhile (· ≠ '/') ++ "  ".toList ++ netmask) ++
    " ".toList ++ gateway

/-- A text of routes, each of which can be read. -/
def AllRoutes (routes : Option Text) : Prop :=
  ∀ token ∈ routeTokens (routes.getD []), cidrToIPAndNetmask token ≠ none

instance (routes : Option Text) : Decidable (AllRoutes routes) := by
  rw [AllRoutes]
  exact List.decidableBAll _ _

theorem cidrToIPAndNetmask_address {token address : Text}
    (h : cidrToIPAndNetmask token = some address) :
    ∃ netmask, address = token.takeWhile (· ≠ '/') ++ "  ".toList ++ netmask := by
  rw [cidrToIPAndNetmask] at h
  split at h
  next ip prefixlen hparts =>
    have hip : ip = token.takeWhile (· ≠ '/') := by
      have hnot : (fun c : Char => !(c == '/')) = fun c => decide (c ≠ '/') := by
        funext c
        rw [beq_eq_decide, decide_not]
      split at hparts
      · rw [head_split hparts, hnot, List.takeWhile_append]
        split
        next hall =>
          have hself : token.takeWhile (fun c => decide (c ≠ '/')) = token :=
            (List.takeWhile_prefix _).eq_of_length hall
          rw [hself]
          exact List.append_nil token
        next => rfl
      · rw [head_split hparts, hnot]
    split at h
    next => cases h
    next len hlen =>
      split at h
      next => cases h
      next =>
        rw [← hip]
        exact ⟨_, (Option.some.inj h).symm⟩
  next => cases h

theorem getCustomRoutes_eq (routes : Option Text) :
    getCustomRoutes routes = customRoutesLoop (routeTokens (routes.getD [])) := by
  cases routes with
  | none => rfl
  | some routes => rfl

theorem customRoutesLoop_length_le (tokens : List Text) :
    (customRoutesLoop tokens).length ≤ tokens.length := by
  induction tokens with
  | nil => exact le_refl _
  | cons token rest ih =>
      rw [customRoutesLoop]
      split
      · exact Nat.zero_le _
      · exact Nat.succ_le_succ ih

/-- The loop reads every token, or stops at one. -/
theorem customRoutesLoop_length_iff (tokens : List Text) :
    (customRoutesLoop tokens).length = tokens.length ↔
      ∀ token ∈ tokens, cidrToIPAndNetmask token ≠ none := by
  induction tokens with
  | nil => simp [customRoutesLoop]
  | cons token rest ih =>
      rw [customRoutesLoop, List.forall_mem_cons]
      cases htoken : cidrToIPAndNetmask token with
      | none => simp
      | some route =>
          rw [List.length_cons, List.length_cons, Nat.succ_inj, ih]
          simp

theorem customRoutesLoop_lines (gateway : Text) {tokens : List Text}
    (h : ∀ token ∈ tokens, cidrToIPAndNetmask token ≠ none) :
    List.Forall₂ (IsRouteLine gateway) tokens ((customRoutesLoop tokens).map fun route =>
      "route ".toList ++ route ++ (" ".toList ++ gateway)) := by
  induction tokens with
  | nil => exact List.Forall₂.nil
  | cons token rest ih =>
      obtain ⟨htoken, hrest⟩ := List.forall_mem_cons.1 h
      obtain ⟨route, hroute⟩ := Option.ne_none_iff_exists'.1 htoken
      rw [customRoutesLoop, hroute, List.map_cons]
      refine List.Forall₂.cons ?_ (ih hrest)
      obtain ⟨netmask, rfl⟩ := cidrToIPAndNetmask_address hroute
      exact ⟨netmask, by simp only [List.append_assoc]⟩

/-! ## The file of a profile without errors -/

namespace VpnProfile

variable {ctx : Context} {configForOvpn3 : Bool} {np : VpnProfile} {mAlias : Option Text}
  {cfg : Text}

/-- What the configuration file of a profile without errors should have: a server, the profile's
own address and a route for every token. -/
structure FileHolds (np : VpnProfile) (cfg : Text) : Prop where
  remote : HasText cfg "remote ".toList
  address : np.mUsePull = false → ∀ addr, np.mIPv4Address = some addr → addr ≠ [] →
    HasText cfg np.addressSection ∧ ∃ netmask after, np.addressSection =
      field "ifconfig ".toList (addr.takeWhile (· ≠ '/') ++ "  ".toList ++ netmask) ++ after
  routes : np.mUseDefaultRoute = false →
    HasText cfg (np.routeLines.flatMap (· ++ "\n".toList)) ∧
      ∃ custom excluded, np.routeLines = custom ++ excluded ∧
        List.Forall₂ (IsRouteLine "vpn_gateway".toList)
          (routeTokens (np.mCustomRoutes.getD [])) custom ∧
        List.Forall₂ (IsRouteLine "net_gateway".toList)
          (routeTokens (np.mExcludedRoutes.getD [])) excluded

theorem getConnectionBlock_remote (conn : Connection) :
    ∃ after, conn.getConnectionBlock = "remote ".toList ++ after := by
  have hprefix : "remote ".toList <+: conn.getConnectionBlock := by
    unfold Connection.getConnectionBlock
    iterate 5 apply List.prefix_append_of_prefix
    exact List.prefix_append _ _
  obtain ⟨after, hafter⟩ := hprefix
  exact ⟨after, hafter.symm⟩

/-- A text that starts with an enabled connection, in the file. -/
theorem hasText_remote (f : Connection → Text) {before : Text} (start : Text)
    (hb : WholeLines before) (hstart : WholeLines start) (hf : ∀ conn, WholeLines (f conn))
    (hconn : ∀ conn : Connection, ∃ after, f conn = start ++ conn.getConnectionBlock ++ after)
    (henabled : ∃ c ∈ np.mConnections, c.mEnabled)
    (h : HasText cfg (before ++ (np.mConnections.filter Connection.mEnabled).flatMap f)) :
    HasText cfg "remote ".toList := by
  obtain ⟨conn, hmem, hen⟩ := henabled
  obtain ⟨pre, post, hsplit⟩ := List.append_of_mem (List.mem_filter.2 ⟨hmem, hen⟩)
  obtain ⟨after, hafter⟩ := hconn conn
  obtain ⟨rest, hrest⟩ := getConnectionBlock_remote conn
  rw [hsplit, List.flatMap_append, List.flatMap_cons, hafter, hrest] at h
  generalize "remote ".toList = word at *
  have hparts : HasText cfg ((before ++ pre.flatMap f ++ start) ++ word ++
      (rest ++ after ++ post.flatMap f)) := by
    simpa only [List.append_assoc] using h
  exact hparts.part ((hb.append (.flatMap fun c _ => hf c)).append hstart)

/-- **A server is written**, before the options or in a block of its own. -/
theorem remote_of_enabled (henabled : ∃ c ∈ np.mConnections, c.mEnabled)
    (hconn : HasText cfg np.connectionSection) (hblocks : HasText cfg np.connectionBlocksSection) :
    HasText cfg "remote ".toList := by
  rw [connectionSection] at hconn
  split at hconn
  next conn _ =>
    obtain ⟨after, hafter⟩ := getConnectionBlock_remote conn
    rw [hafter] at hconn
    have hpart : HasText cfg ([] ++ "remote ".toList ++ after) := hconn
    exact hpart.part wholeLines_nil
  next =>
    by_cases hplain : np.canUsePlainRemotes
    · rw [if_pos hplain] at hconn
      refine hasText_remote Connection.getConnectionBlock [] ?_ wholeLines_nil
        (fun conn => conn.wholeLines_getConnectionBlock) (fun conn => ⟨[], by simp⟩) henabled hconn
      exact .ite (by decide) wholeLines_nil
    · rw [connectionBlocksSection, if_neg hplain] at hblocks
      refine hasText_remote _ "<connection>\n".toList (.inr (by decide +kernel))
        (by decide) (fun conn => ?_) (fun conn => ⟨"</connection>\n".toList, rfl⟩) henabled hblocks
      exact .append (.append (by decide) conn.wholeLines_getConnectionBlock) (by decide)

/-- The check leaves the name of the server readable. -/
theorem verifySection_ne_none (henabled : ∃ c ∈ np.mConnections, c.mEnabled) :
    np.verifySection ≠ none := by
  obtain ⟨conn, hmem, -⟩ := henabled
  obtain ⟨first, rest, hconns⟩ := List.exists_cons_of_ne_nil (List.ne_nil_of_mem hmem)
  rw [verifySection]
  split
  · simp
  · split
    · rw [remoteCNSection, hconns]
      split
      · simp
      · simp
    · simp

theorem addressSection_eq {addr address : Text} (hpull : np.mUsePull = false)
    (haddr : np.mIPv4Address = some addr) (hne : addr ≠ [])
    (haddress : cidrToIPAndNetmask addr = some address) :
    ∃ after, np.addressSection = field "ifconfig ".toList address ++ after := by
  have hempty : addr.isEmpty = false := by simpa using hne
  have hprefix : field "ifconfig ".toList address <+: np.addressSection := by
    rw [addressSection, hpull, haddr]
    apply List.prefix_append_of_prefix
    simp only [hempty, haddress, Option.getD_some, Bool.false_eq_true, if_false]
    exact List.prefix_append _ _
  obtain ⟨after, hafter⟩ := hprefix
  exact ⟨after, hafter.symm⟩

theorem routeLines_eq (hroute : np.mUseDefaultRoute = false) : np.routeLines =
    (customRoutesLoop (routeTokens (np.mCustomRoutes.getD []))).map
      (fun route => "route ".toList ++ route ++ (" ".toList ++ "vpn_gateway".toList)) ++
    (customRoutesLoop (routeTokens (np.mExcludedRoutes.getD []))).map
      (fun route => "route ".toList ++ route ++ (" ".toList ++ "net_gateway".toList)) := by
  rw [routeLines, hroute, getCustomRoutes_eq, getCustomRoutes_eq]
  rfl

/-- **What the check promises.** The file of a profile in which `checkProfile` finds no error is
written with a server, the address and a route for every token, exactly if every token is a route
or the default route is used. -/
theorem checkProfile_sound_iff (ctx : Context) (configForOvpn3 : Bool) (np : VpnProfile)
    (mAlias : Option Text) (hcheck : np.checkProfile mAlias = no_error_found) :
    (∃ cfg, np.getConfigFile ctx configForOvpn3 = some cfg ∧ np.FileHolds cfg) ↔
      (np.mUseDefaultRoute = false →
        AllRoutes np.mCustomRoutes ∧ AllRoutes np.mExcludedRoutes) := by
  obtain ⟨haddress, henabled⟩ := np.of_checkProfile hcheck
  constructor
  · rintro ⟨cfg, -, hholds⟩ hroute
    obtain ⟨-, custom, excluded, hlines, hcustom, hexcluded⟩ := hholds.routes hroute
    -- fewer lines than tokens would be left if the loop had stopped anywhere
    have hlength := congrArg List.length hlines
    rw [routeLines_eq hroute, List.length_append, List.length_append, List.length_map,
      List.length_map, ← hcustom.length_eq, ← hexcluded.length_eq] at hlength
    have hle₁ := customRoutesLoop_length_le (routeTokens (np.mCustomRoutes.getD []))
    have hle₂ := customRoutesLoop_length_le (routeTokens (np.mExcludedRoutes.getD []))
    exact ⟨(customRoutesLoop_length_iff _).1 (by omega),
      (customRoutesLoop_length_iff _).1 (by omega)⟩
  · intro hall
    obtain ⟨verify, hverify⟩ := Option.ne_none_iff_exists'.1 (verifySection_ne_none henabled)
    have hfile : ∃ cfg, np.getConfigFile ctx configForOvpn3 = some cfg := by
      rw [getConfigFile, sections, hverify]
      exact ⟨_, rfl⟩
    obtain ⟨cfg, hcfg⟩ := hfile
    obtain ⟨sections, hsections, htext⟩ := HasText.of_getConfigFile hcfg
    obtain ⟨verify', -, rfl⟩ := np.sections_eq_some ctx configForOvpn3 hsections
    refine ⟨cfg, hcfg, ?_, ?_, ?_⟩
    · exact remote_of_enabled henabled (htext _ (by simp)) (htext _ (by simp))
    · intro hpull addr haddr hne
      obtain ⟨addr', address, haddr', hcidr⟩ := haddress (Or.inl (by simp [hpull]))
      obtain rfl : addr = addr' := Option.some.inj (haddr.symm.trans haddr')
      obtain ⟨netmask, rfl⟩ := cidrToIPAndNetmask_address hcidr
      obtain ⟨after, hafter⟩ := addressSection_eq hpull haddr hne hcidr
      exact ⟨htext _ (by simp), netmask, after, hafter⟩
    · intro hroute
      obtain ⟨hcustom, hexcluded⟩ := hall hroute
      refine ⟨?_, _, _, routeLines_eq hroute, customRoutesLoop_lines _ hcustom,
        customRoutesLoop_lines _ hexcluded⟩
      have hsection : HasText cfg np.routeSection := htext _ (by simp)
      rw [routeSection] at hsection
      exact hsection.part (.ite (by decide) wholeLines_nil)

/-- A profile with a user name and a password that routes what the text says. -/
def routing (routes : String) : VpnProfile where
  mName := "routing".toList
  mAuthenticationType := TYPE_USERPASS
  mUseDefaultRoute := false
  mCustomRoutes := some routes.toList

theorem checkProfile_sound_twoRoutes :
    ∃ cfg, (routing "10.0.0.0/8 192.168.1.1").getConfigFile ⟨[], [], [], false, none, []⟩ false =
      some cfg ∧ (routing "10.0.0.0/8 192.168.1.1").FileHolds cfg :=
  (checkProfile_sound_iff _ false _ none (by decide +kernel)).2 (by decide +kernel)

/-- **A token that is no route hides those behind it.** The check finds no error, since a route is
read before the bad token, and the last route is not written. -/
theorem checkProfile_sound_counterexample :
    ¬ ∀ (ctx : Context) (configForOvpn3 : Bool) (np : VpnProfile) (mAlias : Option Text),
      np.checkProfile mAlias = no_error_found → ¬ np.UsesKeystore →
      ∃ cfg, np.getConfigFile ctx configForOvpn3 = some cfg ∧ np.FileHolds cfg := by
  intro h
  obtain ⟨cfg, -, hholds⟩ := h ⟨[], [], [], false, none, []⟩ false
    (routing "10.0.0.0/8 10.1.0.0/33 192.168.0.0/16") none (by decide +kernel) (by decide)
  obtain ⟨-, custom, excluded, hlines, hcustom, hexcluded⟩ := hholds.routes rfl
  have hlength := congrArg List.length hlines
  rw [List.length_append, ← hcustom.length_eq, ← hexcluded.length_eq] at hlength
  exact absurd hlength (by decide +kernel)

end VpnProfile

end PortVpn.Config
