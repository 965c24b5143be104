import PortVpn.Config.ConfigParser
import PortVpn.Net.CIDRIP

/-!
# The profile and its configuration file

`VpnProfile` with the fields that the import of a configuration sets and `getConfigFile` reads.
`getConfigFile` writes its text section by section; every section is a function of its own under
the name of what it writes, and `sections` is their order.
-/

set_option autoImplicit false

namespace PortVpn.Config

open PortVpn.Lib

/-- `Connection`. -/
structure Connection where
  mServerName : Text := "openvpn.blinkt.de".toList
  mServerPort : Text := "1194".toList
  mUseUdp : Bool := true
  mCustomConfiguration : Text := []
  mUseCustomConfig : Bool := false
  mEnabled : Bool := true
  mConnectTimeout : Int := 0
  deriving DecidableEq, Repr

/-- The values of `mAuthenticationType`. -/
inductive AuthenticationType where
  | TYPE_CERTIFICATES
  | TYPE_PKCS12
  | TYPE_KEYSTORE
  | TYPE_USERPASS
  | TYPE_STATICKEYS
  | TYPE_USERPASS_CERTIFICATES
  | TYPE_USERPASS_PKCS12
  | TYPE_USERPASS_KEYSTORE
  deriving DecidableEq, Repr

export AuthenticationType (TYPE_CERTIFICATES TYPE_PKCS12 TYPE_KEYSTORE TYPE_USERPASS
  TYPE_STATICKEYS TYPE_USERPASS_CERTIFICATES TYPE_USERPASS_PKCS12 TYPE_USERPASS_KEYSTORE)

/-- The values of `mX509AuthType`. -/
inductive X509AuthType where
  | X509_VERIFY_TLSREMOTE
  | X509_VERIFY_TLSREMOTE_COMPAT_NOREMAPPING
  | X509_VERIFY_TLSREMOTE_DN
  | X509_VERIFY_TLSREMOTE_RDN
  | X509_VERIFY_TLSREMOTE_RDN_PREFIX
  deriving DecidableEq, Repr

export X509AuthType (X509_VERIFY_TLSREMOTE X509_VERIFY_TLSREMOTE_COMPAT_NOREMAPPING
  X509_VERIFY_TLSREMOTE_DN X509_VERIFY_TLSREMOTE_RDN X509_VERIFY_TLSREMOTE_RDN_PREFIX)

def DEFAULT_DNS1 : Text := "8.8.8.8".toList
def DEFAULT_DNS2 : Text := "8.8.4.4".toList

/-- `VpnProfile`. A field that can be null is an option; a field that neither its initial value nor
the import makes null is not. -/
structure VpnProfile where
  mAuthenticationType : AuthenticationType := TYPE_KEYSTORE
  mName : Text
  mClientCertFilename : Option Text := none
  mTLSAuthDirection : Text := []
  mTLSAuthFilename : Option Text := none
  mClientKeyFilename : Option Text := none
  mCaFilename : Option Text := none
  mUseLzo : Bool := true
  mPKCS12Filename : Option Text := none
  mUseTLSAuth : Bool := false
  mDNS1 : Text := DEFAULT_DNS1
  mDNS2 : Text := DEFAULT_DNS2
  mIPv4Address : Option Text := none
  mIPv6Address : Option Text := none
  mOverrideDNS : Bool := false
  mSearchDomain : Text := "blinkt.de".toList
  mUseDefaultRoute : Bool := true
  mUsePull : Bool := true
  mCustomRoutes : Option Text := none
  mCheckRemoteCN : Bool := true
  mExpectTLSCert : Bool := false
  mRemoteCN : Text := []
  mPassword : Text := []
  mUsername : Option Text := some []
  mRoutenopull : Bool := false
  mUseRandomHostname : Bool := false
  mUseFloat : Bool := false
  mUseCustomConfig : Bool := false
  mCustomConfigOptions : Text := []
  mVerb : Text := "1".toList
  mCipher : Text := []
  mNobind : Bool := false
  mUseDefaultRoutev6 : Bool := true
  mCustomRoutesv6 : Text := []
  mPersistTun : Bool := false
  mConnectRetryMax : Text := "-1".toList
  mConnectRetry : Text := "2".toList
  mConnectRetryMaxTime : Text := "300".toList
  mAuth : Text := []
  mX509AuthType : X509AuthType := X509_VERIFY_TLSREMOTE_RDN
  mx509UsernameField : Option Text := none
  mAllowLocalLAN : Bool := false
  mExcludedRoutes : Option Text := none
  mMssFix : Int := 0
  mConnections : List Connection := [{}]
  mRemoteRandom : Bool := false
  mCrlFilename : Option Text := none
  mPushPeerInfo : Bool := false
  mServerName : Text := "openvpn.blinkt.de".toList
  deriving DecidableEq, Repr

/-- `VpnProfile.clearDefaults`. -/
def VpnProfile.clearDefaults (np : VpnProfile) : VpnProfile :=
  { np with
    mServerName := "unknown".toList
    mUsePull := false
    mUseLzo := false
    mUseDefaultRoute := false
    mUseDefaultRoutev6 := false
    mExpectTLSCert := false
    mCheckRemoteCN := false
    mPersistTun := false
    mAllowLocalLAN := true
    mPushPeerInfo := false
    mMssFix := 0 }

/-! ## Embedded files -/

/-- `VpnProfile.DISPLAYNAME_TAG`. -/
def DISPLAYNAME_TAG : Text := "[[NAME]]".toList

/-- `VpnProfile.isEmbedded`, for data that is not null. -/
def isEmbedded (data : Text) : Bool :=
  INLINE_TAG.isPrefixOf data || DISPLAYNAME_TAG.isPrefixOf data

/-- `VpnProfile.getEmbeddedContent`. -/
def getEmbeddedContent (data : Text) : Text := (afterFirst INLINE_TAG data).getD data

/-- `VpnProfile.insertFileData`. -/
def insertFileData (cfgentry : Text) : Option Text → Text
  | none => cfgentry ++ " file missing in config profile\n".toList
  | some filedata =>
      if isEmbedded filedata then
        "<".toList ++ cfgentry ++ ">\n".toList ++ getEmbeddedContent filedata ++ "\n</".toList ++
          cfgentry ++ ">\n".toList
      else cfgentry ++ " ".toList ++ openVpnEscape filedata ++ "\n".toList

/-! ## Connections -/

namespace Connection

variable (conn : Connection)

/-- `Connection.isOnlyRemote`. -/
def isOnlyRemote : Bool := conn.mCustomConfiguration.isEmpty || !conn.mUseCustomConfig

/-- `Connection.getConnectionBlock`. The timeout is formatted for the default locale, whose digits are
taken to be those of ASCII. -/
def getConnectionBlock : Text :=
  "remote ".toList ++ conn.mServerName ++ " ".toList ++ conn.mServerPort ++
    (if conn.mUseUdp then " udp\n".toList else " tcp-client\n".toList) ++
    (if conn.mConnectTimeout ≠ 0 then
      " connect-timeout  ".toList ++ decimal conn.mConnectTimeout ++ "\n".toList else []) ++
    (if conn.isOnlyRemote then [] else conn.mCustomConfiguration ++ "\n".toList)

end Connection

/-! ## Routes -/

/-- A netmask in dotted notation. -/
def dottedMask (nm : Nat) : Text :=
  decimal (nm / 2 ^ 24 % 256 : Nat) ++ ".".toList ++ decimal (nm / 2 ^ 16 % 256 : Nat) ++
    ".".toList ++ decimal (nm / 2 ^ 8 % 256 : Nat) ++ ".".toList ++ decimal (nm % 256 : Nat)

/-- `VpnProfile.cidrToIPAndNetmask`. -/
def cidrToIPAndNetmask (route : Text) : Option Text :=
  let parts := split (· == '/') route
  let parts := if parts.length = 1 then split (· == '/') (route ++ "/32".toList) else parts
  match parts with
  | [ip, prefixlen] =>
      match parseInt prefixlen with
      | none => none
      | some len =>
          if len < 0 ∨ len > 32 then none
          else some (ip ++ "  ".toList ++ dottedMask (0xffffffff * 2 ^ (32 - len.toNat) % 2 ^ 32))
  | _ => none

/-- The tokens of a list of routes. -/
def routeTokens (routes : Text) : List Text :=
  (split (fun c => c == '\n' || c == ' ' || c == '\t') routes).filter (· ≠ [])

/-- The loop of `getCustomRoutes`, which returns at a token that is no route. -/
def customRoutesLoop : List Text → List Text
  | [] => []
  | route :: rest =>
      match cidrToIPAndNetmask route with
      | none => []
      | some cidrroute => cidrroute :: customRoutesLoop rest

/-- `VpnProfile.getCustomRoutes`. -/
def getCustomRoutes : Option Text → List Text
  | none => []
  | some routes => customRoutesLoop (routeTokens routes)

/-- `VpnProfile.getCustomRoutesv6`. -/
def getCustomRoutesv6 (routes : Text) : List Text := routeTokens routes

/-! ## The configuration file -/

/-- What `getConfigFile` asks the system for. -/
structure Context where
  cacheDir : Text
  versionEnvString : Text
  platformVersion : Text
  usesystemproxy : Bool
  /-- The certificates of the key store: authority, extra certificates and client certificate. -/
  keyStoreCertificates : Option (Text × Option Text × Text)
  /-- The string `R.string.keychain_access`. -/
  keychainAccess : Text

namespace VpnProfile

variable (ctx : Context) (configForOvpn3 : Bool) (np : VpnProfile)

/-- A line of options that has its value in front of the end. -/
def field (start value : Text) : Text := start ++ value ++ "\n".toList

/-- The lines for the management interface. -/
def managementSection : Text :=
  "# Enables connection to GUI\n".toList ++
    "management ".toList ++ ctx.cacheDir ++ "/mgmtsocket unix\n".toList ++
    "management-client\n".toList ++
    "management-query-passwords\n".toList ++
    "management-hold\n\n".toList ++
    (if configForOvpn3 then []
     else "setenv IV_GUI_VER ".toList ++ openVpnEscape ctx.versionEnvString ++ " \n".toList ++
      "setenv IV_PLAT_VER ".toList ++ openVpnEscape ctx.platformVersion ++ "\n".toList) ++
    "machine-readable-output\n".toList ++
    "ifconfig-nowarn\n".toList

/-- The lines for the role and the verbosity. -/
def clientSection : Text :=
  let useTLSClient := np.mAuthenticationType ≠ TYPE_STATICKEYS
  (if useTLSClient ∧ np.mUsePull then "client\n".toList
   else if np.mUsePull then "pull\n".toList
   else if useTLSClient then "tls-client\n".toList else []) ++
    "verb 4\n".toList

/-- The lines for the retries and the device. -/
def retrySection : Text :=
  (if np.mConnectRetryMax ≠ "-1".toList then field "connect-retry-max ".toList np.mConnectRetryMax
   else []) ++
    field "connect-retry ".toList
      ((if np.mConnectRetry.isEmpty then "2".toList else np.mConnectRetry) ++ " ".toList ++
        (if np.mConnectRetryMaxTime.isEmpty then "300".toList else np.mConnectRetryMaxTime)) ++
    "resolv-retry 60\n".toList ++
    "dev tun\n".toList

/-- Without options of their own, several connections need no blocks. -/
def canUsePlainRemotes : Bool :=
  np.mConnections.length == 1 || np.mConnections.all Connection.isOnlyRemote

/-- The connections, if they are written as plain remotes. -/
def connectionSection : Text :=
  match np.mConnections with
  | [conn] => conn.getConnectionBlock
  | conns =>
      (if np.mRemoteRandom then "remote-random\n".toList else []) ++
        (if np.canUsePlainRemotes then
          (conns.filter Connection.mEnabled).flatMap Connection.getConnectionBlock else [])

/-- The files of a certificate. -/
def certificatesSection : Text :=
  insertFileData "ca".toList np.mCaFilename ++
    insertFileData "key".toList np.mClientKeyFilename ++
    insertFileData "cert".toList np.mClientCertFilename

/-- The branch for versions of Android before the lowest supported one is left out. -/
def keystoreSection : Text :=
  if configForOvpn3 then []
  else "### From Keystore ####\n".toList ++
    match ctx.keyStoreCertificates with
    | some (ca, extra, cert) =>
        "<ca>\n".toList ++ ca ++ "\n</ca>\n".toList ++
          (match extra with
           | some certs => "<extra-certs>\n".toList ++ certs ++ "\n</extra-certs>\n".toList
           | none => []) ++
          "<cert>\n".toList ++ cert ++ "\n</cert>\n".toList ++
          "management-external-key\n".toList
    | none => ctx.keychainAccess ++ "\n".toList

/-- The lines for the type of authentication. -/
def authenticationSection : Text :=
  match np.mAuthenticationType with
  | .TYPE_USERPASS_CERTIFICATES => "auth-user-pass\n".toList ++ np.certificatesSection
  | .TYPE_CERTIFICATES => np.certificatesSection
  | .TYPE_USERPASS_PKCS12 =>
      "auth-user-pass\n".toList ++ insertFileData "pkcs12".toList np.mPKCS12Filename
  | .TYPE_PKCS12 => insertFileData "pkcs12".toList np.mPKCS12Filename
  | .TYPE_USERPASS_KEYSTORE => "auth-user-pass\n".toList ++ keystoreSection ctx configForOvpn3
  | .TYPE_KEYSTORE => keystoreSection ctx configForOvpn3
  | .TYPE_USERPASS => "auth-user-pass\n".toList ++ insertFileData "ca".toList np.mCaFilename
  | .TYPE_STATICKEYS => []

/-- The file of revoked certificates. -/
def crlSection : Text :=
  match np.mCrlFilename with
  | none => []
  | some file => if file.isEmpty then [] else insertFileData "crl-verify".toList file

/-- The lines for compression and for the key of `tls-auth`. -/
def tlsAuthSection : Text :=
  (if np.mUseLzo then "comp-lzo\n".toList else []) ++
    if np.mUseTLSAuth then
      insertFileData (if np.mAuthenticationType = TYPE_STATICKEYS then "secret".toList
        else "tls-auth".toList) np.mTLSAuthFilename ++
        (if np.mTLSAuthDirection.isEmpty then []
         else field "key-direction ".toList np.mTLSAuthDirection)
    else []

/-- A text that is null is written as such. -/
def addressSection : Text :=
  (if np.mUsePull then []
   else
    (match np.mIPv4Address with
     | none => []
     | some addr =>
        if addr.isEmpty then []
        else field "ifconfig ".toList ((cidrToIPAndNetmask addr).getD "null".toList)) ++
    (match np.mIPv6Address with
     | none => []
     | some addr => if addr.isEmpty then [] else field "ifconfig-ipv6 ".toList addr)) ++
    (if np.mUsePull ∧ np.mRoutenopull then "route-nopull\n".toList else [])

/-- The lines for IPv4 routes. -/
def routeLines : List Text :=
  if np.mUseDefaultRoute then ["route 0.0.0.0 0.0.0.0 vpn_gateway".toList]
  else
    (getCustomRoutes np.mCustomRoutes).map
      (fun route => "route ".toList ++ route ++ " vpn_gateway".toList) ++
    (getCustomRoutes np.mExcludedRoutes).map
      (fun route => "route ".toList ++ route ++ " net_gateway".toList)

/-- The lines for the routes. -/
def routeSection : Text :=
  (if np.mUseDefaultRoutev6 then "route-ipv6 ::/0\n".toList else []) ++
    np.routeLines.flatMap (· ++ "\n".toList) ++
    (if np.mUseDefaultRoutev6 then []
     else (getCustomRoutesv6 np.mCustomRoutesv6).flatMap (field "route-ipv6 ".toList ·))

/-- The lines for the fields with name servers. -/
def dnsLines : List Text :=
  if np.mOverrideDNS ∨ !np.mUsePull then
    (if np.mDNS1.isEmpty then [] else ["dhcp-option DNS ".toList ++ np.mDNS1]) ++
      (if np.mDNS2.isEmpty then [] else ["dhcp-option DNS ".toList ++ np.mDNS2])
  else []

/-- The lines for name servers and the search domain. -/
def dnsSection : Text :=
  np.dnsLines.flatMap (· ++ "\n".toList) ++
    if (np.mOverrideDNS ∨ !np.mUsePull) ∧ !np.mSearchDomain.isEmpty then
      field "dhcp-option DOMAIN ".toList np.mSearchDomain else []

/-- The lines for the link to the server. -/
def linkSection : Text :=
  (if np.mMssFix ≠ 0 then
    if np.mMssFix ≠ 1450 then field "mssfix ".toList (decimal np.mMssFix) else "mssfix\n".toList
   else []) ++
    (if np.mNobind then "nobind\n".toList else [])

/-- The check of the server's name; `none` when there is no connection to take it from. -/
def remoteCNSection : Option Text :=
  if np.mRemoteCN = [] then
    np.mConnections.head?.map fun conn =>
      field "verify-x509-name ".toList (openVpnEscape conn.mServerName ++ " name".toList)
  else
    some (match np.mX509AuthType with
      | .X509_VERIFY_TLSREMOTE_COMPAT_NOREMAPPING =>
          "compat-names no-remapping\n".toList ++
            field "tls-remote ".toList (openVpnEscape np.mRemoteCN)
      | .X509_VERIFY_TLSREMOTE => field "tls-remote ".toList (openVpnEscape np.mRemoteCN)
      | .X509_VERIFY_TLSREMOTE_RDN =>
          field "verify-x509-name ".toList (openVpnEscape np.mRemoteCN ++ " name".toList)
      | .X509_VERIFY_TLSREMOTE_RDN_PREFIX =>
          field "verify-x509-name ".toList (openVpnEscape np.mRemoteCN ++ " name-prefix".toList)
      | .X509_VERIFY_TLSREMOTE_DN =>
          field "verify-x509-name ".toList (openVpnEscape np.mRemoteCN))

/-- The field of the certificate with the name of the user. -/
def usernameFieldSection : Text :=
  match np.mx509UsernameField with
  | none => []
  | some name =>
      if name.isEmpty then [] else field "x509-username-field ".toList (openVpnEscape name)

/-- The lines for the name of the server; `none` as for `remoteCNSection`. -/
def verifySection : Option Text :=
  if np.mAuthenticationType = TYPE_STATICKEYS then some []
  else if np.mCheckRemoteCN then np.remoteCNSection.map (· ++ np.usernameFieldSection) else some []

/-- The line for the kind of the certificate. -/
def expectTLSCertSection : Text :=
  if np.mAuthenticationType ≠ TYPE_STATICKEYS ∧ np.mExpectTLSCert then
    "remote-cert-tls server\n".toList else []

/-- The lines for the cipher and the digest. -/
def cipherSection : Text :=
  (if np.mCipher.isEmpty then [] else field "cipher ".toList np.mCipher) ++
    (if np.mAuth.isEmpty then [] else field "auth ".toList np.mAuth)

/-- The lines for the rarely used settings. -/
def obscureSection : Text :=
  (if np.mUseRandomHostname then "#my favorite options :)\nremote-random-hostname\n".toList
   else []) ++
    (if np.mUseFloat then "float\n".toList else []) ++
    (if np.mPersistTun then
      ("persist-tun\n# persist-tun also enables pre resolving to avoid DNS resolve problem\n" ++
        "preresolve\n").toList else []) ++
    (if np.mPushPeerInfo then "push-peer-info\n".toList else []) ++
    (if ctx.usesystemproxy then "# Use system proxy setting\nmanagement-query-proxy\n".toList
     else [])

/-- The custom options. -/
def customSection : Text :=
  if np.mUseCustomConfig then
    "# Custom configuration options\n# You are on your on own here :)\n".toList ++
      np.mCustomConfigOptions ++ "\n".toList
  else []

/-- The connections, if they are written as blocks. -/
def connectionBlocksSection : Text :=
  if np.canUsePlainRemotes then []
  else
    ("# Connection Options are at the end to allow global options (and global custom options) " ++
      "to influence connection blocks\n").toList ++
      (np.mConnections.filter Connection.mEnabled).flatMap fun conn =>
        "<connection>\n".toList ++ conn.getConnectionBlock ++ "</connection>\n".toList

/-- The sections of the configuration file, in order. -/
def sections : Option (List Text) := do
  let verify ← np.verifySection
  some
    [managementSection ctx configForOvpn3, np.clientSection, np.retrySection, np.connectionSection,
      np.authenticationSection ctx configForOvpn3, np.crlSection, np.tlsAuthSection,
      np.addressSection, np.routeSection, np.dnsSection, np.linkSection, verify,
      np.expectTLSCertSection, np.cipherSection, np.obscureSection ctx, np.customSection,
      np.connectionBlocksSection]

/-- `VpnProfile.getConfigFile`; `none` for an `ArrayIndexOutOfBoundsException`. -/
def getConfigFile : Option Text := (np.sections ctx configForOvpn3).map List.flatten

end VpnProfile

/-! ## Lines of the configuration file -/

/-- A text that is empty or ends with its last line. -/
def WholeLines (t : Text) : Prop := t = [] ∨ t.getLast? = some '\n'

instance (t : Text) : Decidable (WholeLines t) := by
  rw [WholeLines]
  infer_instance

theorem wholeLines_nil : WholeLines [] := .inl rfl

theorem wholeLines_newline (t : Text) : WholeLines (t ++ "\n".toList) :=
  .inr (List.getLast?_concat ..)

theorem WholeLines.append {s t : Text} (hs : WholeLines s) (ht : WholeLines t) :
    WholeLines (s ++ t) := by
  rcases ht with rfl | ht
  · rwa [List.append_nil]
  · exact .inr (by rw [List.getLast?_append, ht]; rfl)

theorem WholeLines.flatMap {α : Type} {l : List α} {f : α → Text} (h : ∀ a ∈ l, WholeLines (f a)) :
    WholeLines (l.flatMap f) := by
  induction l with
  | nil => exact wholeLines_nil
  | cons a l ih =>
      exact (h a List.mem_cons_self).append (ih fun b hb => h b (List.mem_cons_of_mem _ hb))

theorem WholeLines.ite {p : Prop} [Decidable p] {s t : Text} (hs : WholeLines s)
    (ht : WholeLines t) : WholeLines (if p then s else t) := by
  split
  · exact hs
  · exact ht

theorem wholeLines_insertFileData (cfgentry : Text) (filedata : Option Text) :
    WholeLines (insertFileData cfgentry filedata) := by
  cases filedata with
  | none => exact .inr (by rw [insertFileData, List.getLast?_append]; rfl)
  | some data =>
      rw [insertFileData]
      exact .ite (.inr (by rw [List.getLast?_append]; rfl)) (wholeLines_newline _)

theorem Connection.wholeLines_getConnectionBlock (conn : Connection) :
    WholeLines conn.getConnectionBlock := by
  unfold getConnectionBlock
  refine .append (.append ?_ ?_) ?_
  · have hend : ∀ b : Bool,
        (if b then " udp\n".toList else " tcp-client\n".toList).getLast? = some '\n' := by decide
    exact .inr (by rw [List.getLast?_append, hend]; rfl)
  · exact .ite (wholeLines_newline _) wholeLines_nil
  · exact .ite wholeLines_nil (wholeLines_newline _)

namespace VpnProfile

variable (ctx : Context) (configForOvpn3 : Bool) (np : VpnProfile)

theorem wholeLines_field (start value : Text) : WholeLines (field start value) :=
  wholeLines_newline _

theorem wholeLines_connectionSection : WholeLines np.connectionSection := by
  rw [connectionSection]
  split
  · exact Connection.wholeLines_getConnectionBlock _
  · exact .append (.ite (by decide) wholeLines_nil)
      (.ite (.flatMap fun conn _ => conn.wholeLines_getConnectionBlock) wholeLines_nil)

theorem wholeLines_keystoreSection : WholeLines (keystoreSection ctx configForOvpn3) := by
  rw [keystoreSection]
  refine .ite wholeLines_nil (.append (by decide) ?_)
  split
  · exact .inr (by rw [List.getLast?_append]; rfl)
  · exact wholeLines_newline _

theorem wholeLines_authenticationSection :
    WholeLines (np.authenticationSection ctx configForOvpn3) := by
  have hcerts : WholeLines np.certificatesSection :=
    .append (.append (wholeLines_insertFileData _ _) (wholeLines_insertFileData _ _))
      (wholeLines_insertFileData _ _)
  rw [authenticationSection]
  split
  · exact .append (by decide) hcerts
  · exact hcerts
  · exact .append (by decide) (wholeLines_insertFileData _ _)
  · exact wholeLines_insertFileData _ _
  · exact .append (by decide) (wholeLines_keystoreSection ctx configForOvpn3)
  · exact wholeLines_keystoreSection ctx configForOvpn3
  · exact .append (by decide) (wholeLines_insertFileData _ _)
  · exact wholeLines_nil

theorem wholeLines_verifySection {verify : Text} (h : np.verifySection = some verify) :
    WholeLines verify := by
  have huser : WholeLines np.usernameFieldSection := by
    rw [usernameFieldSection]
    split
    · exact wholeLines_nil
    · exact .ite wholeLines_nil (wholeLines_field _ _)
  rw [verifySection] at h
  split at h
  · cases h
    exact wholeLines_nil
  · split at h
    · obtain ⟨name, hname, rfl⟩ := Option.map_eq_some_iff.1 h
      refine .append ?_ huser
      rw [remoteCNSection] at hname
      split at hname
      · obtain ⟨conn, -, rfl⟩ := Option.map_eq_some_iff.1 hname
        exact wholeLines_field _ _
      · cases hname
        split
        · exact .append (by decide) (wholeLines_field _ _)
        all_goals exact wholeLines_field _ _
    · cases h
      exact wholeLines_nil

theorem sections_eq_some {sections : List Text}
    (h : np.sections ctx configForOvpn3 = some sections) :
    ∃ verify, np.verifySection = some verify ∧ sections =
      [managementSection ctx configForOvpn3, np.clientSection, np.retrySection,
        np.connectionSection, np.authenticationSection ctx configForOvpn3, np.crlSection,
        np.tlsAuthSection, np.addressSection, np.routeSection, np.dnsSection, np.linkSection, verify,
        np.expectTLSCertSection, np.cipherSection, np.obscureSection ctx, np.customSection,
        np.connectionBlocksSection] := by
  rw [VpnProfile.sections] at h
  cases hv : np.verifySection with
  | none => rw [hv] at h; exact nomatch h
  | some verify =>
      rw [hv] at h
      exact ⟨verify, rfl, (Option.some.inj h).symm⟩

/-- **Every section consists of whole lines.** -/
theorem wholeLines_of_mem_sections {sections : List Text}
    (h : np.sections ctx configForOvpn3 = some sections) : ∀ s ∈ sections, WholeLines s := by
  obtain ⟨verify, hv, rfl⟩ := np.sections_eq_some ctx configForOvpn3 h
  simp only [List.mem_cons, List.not_mem_nil, or_false, forall_eq_or_imp, forall_eq]
  -- one goal for each section, in the order of `getConfigFile`
  refine ⟨?_, ?_, ?_, np.wholeLines_connectionSection,
    np.wholeLines_authenticationSection ctx configForOvpn3, ?_, ?_, ?_, ?_, ?_, ?_,
    np.wholeLines_verifySection hv, ?_, ?_, ?_, ?_, ?_⟩
  · exact .append (.append (.append (.inr (by rw [List.getLast?_append]; rfl))
      (.ite wholeLines_nil (wholeLines_newline _))) (by decide)) (by decide)
  · exact .append (.ite (by decide) (.ite (by decide) (.ite (by decide) wholeLines_nil)))
      (by decide)
  · exact .append (.append (.append (.ite (wholeLines_field _ _) wholeLines_nil)
      (wholeLines_field _ _)) (by decide)) (by decide)
  · rw [crlSection]
    split
    · exact wholeLines_nil
    · exact .ite wholeLines_nil (wholeLines_insertFileData _ _)
  · exact .append (.ite (by decide) wholeLines_nil) (.ite (.append
      (wholeLines_insertFileData _ _) (.ite wholeLines_nil (wholeLines_field _ _)))
      wholeLines_nil)
  · rw [addressSection]
    refine .append (.ite wholeLines_nil (.append ?_ ?_)) (.ite (by decide) wholeLines_nil)
    all_goals
      split
      · exact wholeLines_nil
      · exact .ite wholeLines_nil (wholeLines_field _ _)
  · exact .append (.append (.ite (by decide) wholeLines_nil)
      (.flatMap fun line _ => wholeLines_newline line))
      (.ite wholeLines_nil (.flatMap fun route _ => wholeLines_field _ _))
  · exact .append (.flatMap fun line _ => wholeLines_newline line)
      (.ite (wholeLines_field _ _) wholeLines_nil)
  · exact .append (.ite (.ite (wholeLines_field _ _) (by decide)) wholeLines_nil)
      (.ite (by decide) wholeLines_nil)
  · exact .ite (by decide) wholeLines_nil
  · exact .append (.ite wholeLines_nil (wholeLines_field _ _))
      (.ite wholeLines_nil (wholeLines_field _ _))
  · exact .append (.append (.append (.append (.ite (by decide) wholeLines_nil)
      (.ite (by decide) wholeLines_nil)) (.ite (by decide) wholeLines_nil))
      (.ite (by decide) wholeLines_nil)) (.ite (by decide) wholeLines_nil)
  · exact .ite (wholeLines_newline _) wholeLines_nil
  · exact .ite wholeLines_nil (.append (by decide +kernel) (.flatMap fun conn _ => .append (.append
      (by decide) conn.wholeLines_getConnectionBlock) (by decide)))

end VpnProfile

/-- A text that stands in a configuration file from the start of a line on. -/
def HasText (cfg t : Text) : Prop := ∃ before after, WholeLines before ∧ cfg = before ++ t ++ after

/-- A line of a configuration file. -/
def HasLine (cfg line : Text) : Prop := HasText cfg (line ++ "\n".toList)

theorem HasText.of_flatten {sections : List Text} (h : ∀ s ∈ sections, WholeLines s) {s : Text}
    (hs : s ∈ sections) : HasText sections.flatten s := by
  obtain ⟨pre, post, rfl⟩ := List.append_of_mem hs
  refine ⟨pre.flatten, post.flatten, ?_, by simp⟩
  rw [← List.flatMap_id]
  exact .flatMap fun t ht => h t (List.mem_append_left _ ht)

/-- Every section stands in the configuration file. -/
theorem HasText.of_getConfigFile {ctx : Context} {configForOvpn3 : Bool} {np : VpnProfile}
    {cfg : Text} (h : np.getConfigFile ctx configForOvpn3 = some cfg) :
    ∃ sections, np.sections ctx configForOvpn3 = some sections ∧ ∀ s ∈ sections, HasText cfg s := by
  obtain ⟨sections, hs, rfl⟩ := Option.map_eq_some_iff.1 h
  exact ⟨sections, hs, fun s hm =>
    .of_flatten (np.wholeLines_of_mem_sections ctx configForOvpn3 hs) hm⟩

theorem HasText.part {cfg before t after : Text} (h : HasText cfg (before ++ t ++ after))
    (hb : WholeLines before) : HasText cfg t := by
  obtain ⟨pre, post, hpre, rfl⟩ := h
  exact ⟨pre ++ before, after ++ post, hpre.append hb, by simp⟩

/-- Every line of a list of lines that is written is a line of the file. -/
theorem HasText.line {cfg before after : Text} {lines : List Text}
    (h : HasText cfg (before ++ lines.flatMap (· ++ "\n".toList) ++ after))
    (hb : WholeLines before) {line : Text} (hl : line ∈ lines) : HasLine cfg line := by
  obtain ⟨pre, post, rfl⟩ := List.append_of_mem hl
  have h' : HasText cfg (before ++ pre.flatMap (· ++ "\n".toList) ++ (line ++ "\n".toList) ++
      (post.flatMap (· ++ "\n".toList) ++ after)) := by simpa [List.append_assoc] using h
  exact h'.part (hb.append (.flatMap fun line _ => wholeLines_newline line))

theorem HasLine.mem_readLines {cfg line : Text} (h : HasLine cfg line) (hl : Unbroken line) :
    line ∈ readLines cfg := by
  obtain ⟨before, after, hb, rfl⟩ := h
  have hcfg : before ++ (line ++ "\n".toList) ++ after = before ++ (line ++ '\n' :: after) := by
    simp
  rw [hcfg, readLines_append hb, readLines_line hl]
  simp

end PortVpn.Config
