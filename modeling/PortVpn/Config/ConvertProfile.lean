import PortVpn.Config.VpnProfile

/-!
# Converting options to a profile

`convertProfile` takes the options that it knows out of the map, in a fixed order, and sets the
fields of a profile. It is cut here into the groups in which the source treats the options. What
remains in the map after the last group becomes the custom options of the profile.
-/

set_option autoImplicit false

namespace PortVpn.Config

open PortVpn.Lib PortVpn.Net

/-- A method of `ConfigParser` that reads its map of options and removes from it. -/
abbrev Parser := StateT Options (Except Thrown)

/-- `Vector.get`, where the number of arguments has been checked. -/
def Args.arg (args : Args) (i : Nat) : Text := List.getD args i []

theorem Args.arg_mem (args : Args) (i : Nat) : args.arg i = [] ∨ args.arg i ∈ args := by
  rw [Args.arg]
  rw [List.getD_eq_getElem?_getD]
  cases h : args[i]? with
  | none => exact .inl rfl
  | some a => exact .inr (List.mem_of_getElem? h)

/-- The text of a `NumberFormatException`. -/
def forInputString (s : Text) : Text := "For input string: \"".toList ++ s ++ "\"".toList

/-- `ConfigParser.getAllOption`. -/
def getAllOption (option : String) (minarg maxarg : Nat) : Parser (Option (List Args)) :=
  fun options =>
    match options.find option with
    | none => .ok (none, options)
    | some args =>
        match args.find? fun optionline =>
            optionline.length < minarg + 1 || optionline.length > maxarg + 1 with
        | some optionline =>
            fail ("Option ".toList ++ option.toList ++ " has ".toList ++
              decimal (optionline.length - 1 : Nat) ++ " parameters, expected between ".toList ++
              decimal minarg ++ " and ".toList ++ decimal maxarg)
        | none => .ok (some args, options.remove option)

/-- `ConfigParser.getOption`: the last of the argument lists. -/
def getOption (option : String) (minarg maxarg : Nat) : Parser (Option Args) := do
  let alloptions ← getAllOption option minarg maxarg
  return alloptions.bind List.getLast?

/-! ## Pull, static key and routes -/

/-- Whether the configuration is that of a client; both names of the option are removed. -/
def takePull : Parser Bool := fun options =>
  if (options.find "client").isSome ∨ (options.find "pull").isSome then
    .ok (true, (options.remove "pull").remove "client")
  else .ok (false, options)

/-- The failure of `CIDRIP` for a netmask. The bit that ends its loop is cancelled by one value. -/
def netmaskFailure (netmask : Text) (exception : Thrown) : Thrown :=
  if CIDRIP.getIntOf netmask = some (-2 ^ 32) then .endlessLoop else exception

/-- One round of the loop over the routes, with the included and the excluded ones so far. -/
def convertRoute (acc : Text × Text) (route : Args) : Except Thrown (Text × Text) :=
  let netmask := if route.length ≥ 3 then route.arg 2 else "255.255.255.255".toList
  let gateway := if route.length ≥ 4 then route.arg 3 else "vpn_gateway".toList
  match CIDRIP.ofMask (route.arg 1) netmask with
  | none =>
      .error (netmaskFailure netmask
        (.configParseError ⟨"Could not parse netmask of route ".toList ++ netmask⟩))
  | some cidr =>
      .ok (if gateway = "net_gateway".toList then (acc.1, acc.2 ++ cidr.toText ++ " ".toList)
        else (acc.1 ++ cidr.toText ++ " ".toList, acc.2))

/-- The fields `mCustomRoutes` and `mExcludedRoutes`. -/
def convertRoutes (np : VpnProfile) : Option (List Args) →
    Except Thrown (Option Text × Option Text)
  | none => .ok (np.mCustomRoutes, np.mExcludedRoutes)
  | some routes =>
      (routes.foldlM convertRoute ([], [])).map fun acc => (some acc.1, some acc.2)

/-- The fields `mTLSAuthFilename`, `mUseTLSAuth` and `mTLSAuthDirection` after one `tls-auth`. -/
def setTlsAuth (fields : Option Text × Bool × Text) (tlsauth : Args) : Option Text × Bool × Text :=
  let (file, use) := if tlsauth.arg 1 = "[inline]".toList then (fields.1, fields.2.1)
    else (some (tlsauth.arg 1), true)
  (file, use, if tlsauth.length = 3 then tlsauth.arg 2 else fields.2.2)

/-- `ConfigParser.checkRedirectParameters`, for the field `mAllowLocalLAN`. -/
def checkRedirectParameters (defgw : List Args) (mAllowLocalLAN : Bool) : Bool :=
  defgw.foldl (fun allow redirect => redirect.tail.foldl (fun allow arg =>
    if arg = "block-local".toList then false
    else if arg = "unblock-local".toList then true else allow) allow) mAllowLocalLAN

/-- What the options on routes set, and the static key that is read next to them. -/
def setRouting (pull : Bool) (secret : Option Args) (routes : Option Text × Option Text)
    (routesV6 : Option (List Args)) (routeNoPull : Option Args) (np : VpnProfile) : VpnProfile :=
  { np with
    mUsePull := pull || np.mUsePull
    mAuthenticationType := if secret.isSome then TYPE_STATICKEYS else np.mAuthenticationType
    mUseTLSAuth := secret.isSome || np.mUseTLSAuth
    mTLSAuthFilename := secret.elim np.mTLSAuthFilename fun secret => some (secret.arg 1)
    mTLSAuthDirection := secret.elim np.mTLSAuthDirection fun secret =>
      if secret.length = 3 then secret.arg 2 else np.mTLSAuthDirection
    mCustomRoutes := routes.1
    mExcludedRoutes := routes.2
    mCustomRoutesv6 := routesV6.elim np.mCustomRoutesv6
      (List.flatMap fun route => route.arg 1 ++ " ".toList)
    mRoutenopull := routeNoPull.isSome || np.mRoutenopull }

/-- The options from `pull` to `route-nopull`. -/
def convertRouting (np : VpnProfile) : Parser VpnProfile := do
  let pull ← takePull
  let secret ← getOption "secret" 1 2
  let routes ← getAllOption "route" 1 4
  let routes ← convertRoutes np routes
  let routesV6 ← getAllOption "route-ipv6" 1 4
  let routeNoPull ← getOption "route-nopull" 1 1
  return setRouting pull secret routes routesV6 routeNoPull np

/-- What `tls-auth` and its direction set, and the options for a default gateway. -/
def setTlsAuths (tlsauthoptions : Option (List Args)) (direction : Option Args)
    (defgw redirectPrivate : Option (List Args)) (np : VpnProfile) : VpnProfile :=
  let tls := (tlsauthoptions.getD []).foldl setTlsAuth
    (np.mTLSAuthFilename, np.mUseTLSAuth, np.mTLSAuthDirection)
  { np with
    mTLSAuthFilename := tls.1
    mUseTLSAuth := tls.2.1
    mTLSAuthDirection := direction.elim tls.2.2 (·.arg 1)
    mUseDefaultRoute := defgw.isSome || np.mUseDefaultRoute
    mAllowLocalLAN := checkRedirectParameters (redirectPrivate.getD [])
      (checkRedirectParameters (defgw.getD []) np.mAllowLocalLAN) }

/-- The options from `tls-auth` to `redirect-private`. -/
def convertTlsAuth (np : VpnProfile) : Parser VpnProfile := do
  let tlsauthoptions ← getAllOption "tls-auth" 1 2
  let direction ← getOption "key-direction" 1 1
  let defgw ← getAllOption "redirect-gateway" 0 5
  let redirectPrivate ← getAllOption "redirect-private" 0 5
  return setTlsAuths tlsauthoptions direction defgw redirectPrivate np

/-! ## Device and addresses -/

/-- Only the device `tun` is supported. -/
def checkDevice (dev devtype : Option Args) : Except Thrown Unit :=
  if devtype.any (fun args => args.arg 1 = "tun".toList) ∨
      dev.any (fun args => "tun".toList.isPrefixOf (args.arg 1)) ∨
      devtype = none ∧ dev = none then
    .ok ()
  else fail "Sorry. Only tun mode is supported. See the FAQ for more detail".toList

/-- The field `mMssFix`. -/
def convertMssfix (np : VpnProfile) : Option Args → Except Thrown Int
  | none => .ok np.mMssFix
  | some mssfix =>
      if mssfix.length ≥ 2 then
        match parseInt (mssfix.arg 1) with
        | none => fail "Argument to --mssfix has to be an integer".toList
        | some n => .ok n
      else .ok 1450

def checkMode (mode : Option Args) : Except Thrown Unit :=
  if mode.any fun mode => mode.arg 1 ≠ "p2p".toList then
    fail "Invalid mode for --mode specified, need p2p".toList
  else .ok ()

/-- The fields that `dhcp-option` sets. -/
structure DhcpFields where
  mSearchDomain : Text
  mOverrideDNS : Bool
  mDNS1 : Text
  mDNS2 : Text
  deriving DecidableEq, Repr

/-- One round of the loop over the `dhcp-option` options. The first field for a name server counts
as free as long as it holds the default. -/
def setDhcpOption (np : DhcpFields) (dhcpoption : Args) : DhcpFields :=
  if dhcpoption.arg 1 = "DOMAIN".toList then { np with mSearchDomain := dhcpoption.arg 2 }
  else if dhcpoption.arg 1 = "DNS".toList then
    if np.mDNS1 = DEFAULT_DNS1 then { np with mOverrideDNS := true, mDNS1 := dhcpoption.arg 2 }
    else { np with mOverrideDNS := true, mDNS2 := dhcpoption.arg 2 }
  else np

/-- The exception for a netmask of which `CIDRIP` cannot read a part, or misses one. -/
def ifconfigError (netmask : Text) : Thrown :=
  match ((split (· == '.') netmask).zip [parseLong, parseInt, parseInt, parseInt]).find?
      fun part => (part.2 part.1).isNone with
  | some part =>
      .configParseError ⟨"Could not pase ifconfig IP address: ".toList ++ forInputString part.1⟩
  | none => .indexOutOfBounds

/-- The field `mIPv4Address`. -/
def convertIfconfig (np : VpnProfile) : Option Args → Except Thrown (Option Text)
  | none => .ok np.mIPv4Address
  | some ifconfig =>
      match CIDRIP.ofMask (ifconfig.arg 1) (ifconfig.arg 2) with
      | none => .error (netmaskFailure (ifconfig.arg 2) (ifconfigError (ifconfig.arg 2)))
      | some cidr => .ok (some cidr.toText)

/-- What the options on the device and its addresses set. -/
def setDevice (mssFix : Int) (dhcpoptions : Option (List Args)) (ipv4Address : Option Text)
    (np : VpnProfile) : VpnProfile :=
  let dhcp := (dhcpoptions.getD []).foldl setDhcpOption
    ⟨np.mSearchDomain, np.mOverrideDNS, np.mDNS1, np.mDNS2⟩
  { np with
    mMssFix := mssFix
    mSearchDomain := dhcp.mSearchDomain
    mOverrideDNS := dhcp.mOverrideDNS
    mDNS1 := dhcp.mDNS1
    mDNS2 := dhcp.mDNS2
    mIPv4Address := ipv4Address }

/-- The options from `dev` to `ifconfig`. -/
def convertDevice (np : VpnProfile) : Parser VpnProfile := do
  let dev ← getOption "dev" 1 1
  let devtype ← getOption "dev-type" 1 1
  checkDevice dev devtype
  let mssfix ← getOption "mssfix" 0 1
  let mssFix ← convertMssfix np mssfix
  let mode ← getOption "mode" 1 1
  checkMode mode
  let dhcpoptions ← getAllOption "dhcp-option" 2 2
  let ifconfig ← getOption "ifconfig" 2 2
  let ipv4Address ← convertIfconfig np ifconfig
  return setDevice mssFix dhcpoptions ipv4Address np

/-! ## Ciphers and certificates -/

/-- What the options on ciphers and names of hosts set. -/
def setCiphers (randomHostname float compLzo cipher auth : Option Args) (np : VpnProfile) :
    VpnProfile :=
  { np with
    mUseRandomHostname := randomHostname.isSome || np.mUseRandomHostname
    mUseFloat := float.isSome || np.mUseFloat
    mUseLzo := compLzo.isSome || np.mUseLzo
    mCipher := cipher.elim np.mCipher (·.arg 1)
    mAuth := auth.elim np.mAuth (·.arg 1) }

/-- The options from `remote-random-hostname` to `auth`. -/
def convertCiphers (np : VpnProfile) : Parser VpnProfile := do
  let randomHostname ← getOption "remote-random-hostname" 0 0
  let float ← getOption "float" 0 0
  let compLzo ← getOption "comp-lzo" 0 1
  let cipher ← getOption "cipher" 1 1
  let auth ← getOption "auth" 1 1
  return setCiphers randomHostname float compLzo cipher auth np

/-- What the options on certificates and keys set. -/
def setCertificates (ca cert key pkcs12 cryptoapicert : Option Args) (np : VpnProfile) :
    VpnProfile :=
  { np with
    mCaFilename := ca.elim np.mCaFilename fun ca => some (ca.arg 1)
    mClientCertFilename := cert.elim np.mClientCertFilename fun cert => some (cert.arg 1)
    mClientKeyFilename := key.elim np.mClientKeyFilename fun key => some (key.arg 1)
    mPKCS12Filename := pkcs12.elim np.mPKCS12Filename fun pkcs12 => some (pkcs12.arg 1)
    mAuthenticationType :=
      if pkcs12.isSome || cryptoapicert.isSome then TYPE_KEYSTORE
      else if cert.isSome then TYPE_CERTIFICATES else np.mAuthenticationType }

/-- With the value of `noauthtypeset` after the last of these options. -/
def convertCertificates (np : VpnProfile) (noauthtypeset : Bool) :
    Parser (VpnProfile × Bool) := do
  let ca ← getOption "ca" 1 1
  let cert ← getOption "cert" 1 1
  let key ← getOption "key" 1 1
  let pkcs12 ← getOption "pkcs12" 1 1
  let cryptoapicert ← getOption "cryptoapicert" 1 1
  return (setCertificates ca cert key pkcs12 cryptoapicert np,
    noauthtypeset && cert.isNone && pkcs12.isNone && cryptoapicert.isNone)

/-! ## Verification of the server -/

/-- The field `mX509AuthType` for a `verify-x509-name`. -/
def verifyX509Type (verifyx509name : Args) : Except Thrown X509AuthType :=
  if verifyx509name.length > 2 then
    if verifyx509name.arg 2 = "name".toList then .ok X509_VERIFY_TLSREMOTE_RDN
    else if verifyx509name.arg 2 = "subject".toList then .ok X509_VERIFY_TLSREMOTE_DN
    else if verifyx509name.arg 2 = "name-prefix".toList then .ok X509_VERIFY_TLSREMOTE_RDN_PREFIX
    else fail ("Unknown parameter to verify-x509-name: ".toList ++ verifyx509name.arg 2)
  else .ok X509_VERIFY_TLSREMOTE_DN

/-- The fields `mRemoteCN` and `mX509AuthType` for a `tls-remote`. -/
def convertTlsRemote (np : VpnProfile) (compatnames nonameremapping tlsremote : Option Args) :
    Text × X509AuthType :=
  tlsremote.elim (np.mRemoteCN, np.mX509AuthType) fun tlsremote =>
    (tlsremote.arg 1,
      if compatnames.any (fun args => args.length > 2) || nonameremapping.isSome then
        X509_VERIFY_TLSREMOTE_COMPAT_NOREMAPPING
      else X509_VERIFY_TLSREMOTE)

/-- The same fields after a `verify-x509-name`. -/
def convertVerifyX509Name (fields : Text × X509AuthType) :
    Option Args → Except Thrown (Text × X509AuthType)
  | none => .ok fields
  | some args => (verifyX509Type args).map fun type => (args.arg 1, type)

/-- What the options on the name of the server set. -/
def setVerification (tlsremote verifyx509name : Option Args) (remoteCN : Text × X509AuthType)
    (x509usernamefield : Option Args) (np : VpnProfile) : VpnProfile :=
  { np with
    mRemoteCN := remoteCN.1
    mCheckRemoteCN := tlsremote.isSome || verifyx509name.isSome || np.mCheckRemoteCN
    mX509AuthType := remoteCN.2
    mx509UsernameField := x509usernamefield.elim np.mx509UsernameField fun args =>
      some (args.arg 1) }

/-- The options from `compat-names` to `x509-username-field`. -/
def convertVerification (np : VpnProfile) : Parser VpnProfile := do
  let compatnames ← getOption "compat-names" 1 2
  let nonameremapping ← getOption "no-name-remapping" 1 1
  let tlsremote ← getOption "tls-remote" 1 1
  let verifyx509name ← getOption "verify-x509-name" 1 2
  let remoteCN ← convertVerifyX509Name
    (convertTlsRemote np compatnames nonameremapping tlsremote) verifyx509name
  let x509usernamefield ← getOption "x509-username-field" 1 1
  return setVerification tlsremote verifyx509name remoteCN x509usernamefield np

/-! ## Connecting -/

/-- What the options on connecting set. -/
def setConnecting (verb nobind persistTun pushPeerInfo connectretry connectretrymax : Option Args)
    (np : VpnProfile) : VpnProfile :=
  { np with
    mVerb := verb.elim np.mVerb (·.arg 1)
    mNobind := nobind.isSome || np.mNobind
    mPersistTun := persistTun.isSome || np.mPersistTun
    mPushPeerInfo := pushPeerInfo.isSome || np.mPushPeerInfo
    mConnectRetry := connectretry.elim np.mConnectRetry (·.arg 1)
    mConnectRetryMaxTime := connectretry.elim np.mConnectRetryMaxTime fun args =>
      if args.length > 2 then args.arg 2 else np.mConnectRetryMaxTime
    mConnectRetryMax := connectretrymax.elim np.mConnectRetryMax (·.arg 1) }

/-- The options from `verb` to `connect-retry-max`. -/
def convertConnecting (np : VpnProfile) : Parser VpnProfile := do
  let verb ← getOption "verb" 1 1
  let nobind ← getOption "nobind" 0 0
  let persistTun ← getOption "persist-tun" 0 0
  let pushPeerInfo ← getOption "push-peer-info" 0 0
  let connectretry ← getOption "connect-retry" 1 2
  let connectretrymax ← getOption "connect-retry-max" 1 1
  return setConnecting verb nobind persistTun pushPeerInfo connectretry connectretrymax np

/-- Whether the first of the options asks for the certificate of a server. -/
def asksServer (remotetls : List Args) : Bool := (remotetls.headD []).arg 1 == "server".toList

/-- Options that do not ask for a server return to the map, under another name. -/
def putRemoteTls (remotetls : Option (List Args)) (options : Options) : Options :=
  match remotetls with
  | none => options
  | some all => if asksServer all then options else options.put "remotetls" all

/-- What `remote-cert-tls` sets. -/
def setRemoteCertTls (remotetls : Option (List Args)) (np : VpnProfile) : VpnProfile :=
  { np with mExpectTLSCert := remotetls.any asksServer || np.mExpectTLSCert }

/-- The option `remote-cert-tls`, which may return to the map. -/
def convertRemoteCertTls (np : VpnProfile) : Parser VpnProfile := do
  let remotetls ← getAllOption "remote-cert-tls" 1 1
  modify (putRemoteTls remotetls)
  return setRemoteCertTls remotetls np

/-! ## Users and revoked certificates -/

/-- `ConfigParser.useEmbbedUserAuth`, for the fields `mUsername` and `mPassword`. -/
def useEmbbedUserAuth (fields : Option Text × Text) (inlinedata : Text) : Option Text × Text :=
  match split (· == '\n') (getEmbeddedContent inlinedata) with
  | username :: password :: _ => (some username, password)
  | _ => fields

/-- The authentication type after an `auth-user-pass`. -/
def withUserPass (noauthtypeset : Bool) (type : AuthenticationType) : AuthenticationType :=
  if noauthtypeset then TYPE_USERPASS
  else if type = TYPE_CERTIFICATES then TYPE_USERPASS_CERTIFICATES
  else if type = TYPE_KEYSTORE then TYPE_USERPASS_KEYSTORE
  else type

/-- A directory of revoked certificates becomes a custom option. -/
def isCrlDir (crlfile : Args) : Bool := crlfile.length == 3 && crlfile.arg 2 == "dir".toList

/-- What `auth-user-pass` and `crl-verify` set. -/
def setUser (noauthtypeset : Bool) (authuser crlfile : Option Args) (np : VpnProfile) :
    VpnProfile :=
  let user := authuser.elim (np.mUsername, np.mPassword) fun authuser =>
    if authuser.length > 1 then useEmbbedUserAuth (none, np.mPassword) (authuser.arg 1)
    else (np.mUsername, np.mPassword)
  { np with
    mAuthenticationType := if authuser.isSome then
      withUserPass noauthtypeset np.mAuthenticationType else np.mAuthenticationType
    mUsername := user.1
    mPassword := user.2
    mCustomConfigOptions := crlfile.elim np.mCustomConfigOptions fun crlfile =>
      if isCrlDir crlfile then
        np.mCustomConfigOptions ++ List.intercalate " ".toList crlfile ++ "\n".toList
      else np.mCustomConfigOptions
    mCrlFilename := crlfile.elim np.mCrlFilename fun crlfile =>
      if isCrlDir crlfile then np.mCrlFilename else some (crlfile.arg 1) }

/-- The options `auth-user-pass` and `crl-verify`. -/
def convertUser (np : VpnProfile) (noauthtypeset : Bool) : Parser VpnProfile := do
  let authuser ← getOption "auth-user-pass" 0 1
  let crlfile ← getOption "crl-verify" 1 2
  return setUser noauthtypeset authuser crlfile np

/-! ## Options as text -/

/-- The order in which a `HashMap` gives its values is left open. -/
structure HashOrder where
  values : Options → List (List Args)
  perm : ∀ options, (values options).Perm (options.map Prod.snd)

/-- `ConfigParser.ignoreOptionsWithArg`. -/
def ignoreOptionsWithArg : List Args :=
  [["setenv".toList, "IV_GUI_VER".toList], ["setenv".toList, "IV_OPENVPN_GUI_VERSION".toList],
    ["engine".toList, "dynamic".toList], ["setenv".toList, "CLIENT_CERT".toList]]

/-- `ConfigParser.ignoreThisOption`. -/
def ignoreThisOption (option : Args) : Bool :=
  ignoreOptionsWithArg.any fun ignoreOption => ignoreOption.isPrefixOf option

/-- The text of `getOptionStrings` for one argument list. -/
def optionString (optionsline : Args) : Text :=
  if ignoreThisOption optionsline then []
  else if optionsline.length = 2 ∧ (optionsline.arg 0 = "extra-certs".toList ∨
      optionsline.arg 0 = "http-proxy-user-pass".toList) then
    insertFileData (optionsline.arg 0) (some (optionsline.arg 1))
  else escapedLine optionsline ++ "\n".toList

/-- `ConfigParser.getOptionStrings`. -/
def getOptionStrings (option : List Args) : Text := option.flatMap optionString

/-! ## Connections -/

/-- `ConfigParser.isUdpProto`. -/
def isUdpProto (proto : Text) : Except Thrown Bool :=
  if proto = "udp".toList ∨ proto = "udp6".toList then .ok true
  else if proto = "tcp-client".toList ∨ proto = "tcp".toList ∨ proto = "tcp6".toList ∨
      "tcp6-client".toList.isSuffixOf proto then .ok false
  else fail ("Unsupported option to --proto ".toList ++ proto)

/-- The field `mUseUdp`. -/
def convertProto (conn : Connection) : Option Args → Except Thrown Bool
  | none => .ok conn.mUseUdp
  | some proto => isUdpProto (proto.arg 1)

/-- The field `mConnectTimeout`. -/
def convertConnectTimeout (conn : Connection) : Option Args → Except Thrown Int
  | none => .ok conn.mConnectTimeout
  | some connectTimeout =>
      match parseInt (connectTimeout.arg 1) with
      | none =>
          fail ("Argument to connect-timeout (".toList ++ connectTimeout.arg 1 ++
            ") must to be an integer: ".toList ++ forInputString (connectTimeout.arg 1))
      | some n => .ok n

/-- One round of the loop over the remotes; the cases of its `switch` fall through. -/
def remoteConnection (conn : Connection) (remote : Args) : Except Thrown Connection := do
  let useUdp ← if remote.length = 4 then isUdpProto (remote.arg 3) else .ok conn.mUseUdp
  return { conn with
    mUseUdp := useUdp
    mServerPort := if remote.length ≥ 3 then remote.arg 2 else conn.mServerPort
    mServerName := remote.arg 1 }

/-- With defaults, the options that are left in the map become the text of the connection's own
options. -/
def customConfiguration (order : HashOrder) (connDefault : Option Connection) (conn : Connection)
    (options : Options) : Connection :=
  if connDefault.isSome then
    let custom := conn.mCustomConfiguration ++ (order.values options).flatMap getOptionStrings
    { conn with
      mCustomConfiguration := custom
      mUseCustomConfig := !custom.isEmpty || conn.mUseCustomConfig }
  else conn

/-- `ConfigParser.parseConnectionOptions`. -/
def parseConnectionOptions (order : HashOrder) (connDefault : Option Connection) :
    Parser (Connection × List Connection) := do
  let conn := connDefault.getD {}
  let port ← getOption "port" 1 1
  let rport ← getOption "rport" 1 1
  let proto ← getOption "proto" 1 1
  let useUdp ← convertProto conn proto
  let connectTimeout ← getOption "connect-timeout" 1 1
  let timeout ← convertConnectTimeout conn connectTimeout
  let remotes ← getAllOption "remote" 1 3
  let conn := { conn with
    mServerPort := rport.elim (port.elim conn.mServerPort (·.arg 1)) (·.arg 1)
    mUseUdp := useUdp
    mConnectTimeout := timeout }
  let conn := customConfiguration order connDefault conn (← get)
  let connections ← (remotes.getD []).mapM (m := Except Thrown) (remoteConnection conn)
  return (conn, connections)

/-- `ConfigParser.parseConnection`: a block is read as a configuration of its own. -/
def parseConnection (order : HashOrder) (connection : Text) (defaultValues : Connection) :
    Except Thrown (Connection × List Connection) := do
  if javaLength connection < INLINE_TAG.length then .error .indexOutOfBounds
  else
    let p ← parseConfig (substring INLINE_TAG.length connection)
    let r ← parseConnectionOptions order (some defaultValues) p.options
    return r.1

/-- One round of the loop over the connection blocks. -/
def blockConnection (order : HashOrder) (defaultValues : Connection) (conn : Args) :
    Except Thrown Connection := do
  match ← parseConnection order (conn.arg 1) defaultValues with
  | (_, [connection]) => return connection
  | _ => fail "A <connection> block must have exactly one remote".toList

/-- The connections of the profile: the remotes, or the connection blocks. -/
def connectionsOf (order : HashOrder) (conns : Connection × List Connection)
    (connectionBlocks : Option (List Args)) : Except Thrown (List Connection) :=
  match connectionBlocks with
  | none => .ok conns.2
  | some blocks =>
      if conns.2.length > 0 then
        fail "Using a <connection> block and --remote is not allowed.".toList
      else blocks.mapM (blockConnection order conns.1)

/-- The connections that a `proto-force` leaves enabled. -/
def convertProtoForce (connections : List Connection) :
    Option Args → Except Thrown (List Connection)
  | none => .ok connections
  | some protoforce =>
      let disable (disableUDP : Bool) (conn : Connection) : Connection :=
        if conn.mUseUdp = disableUDP then { conn with mEnabled := false } else conn
      if protoforce.arg 1 = "udp".toList then .ok (connections.map (disable true))
      else if protoforce.arg 1 = "tcp".toList then .ok (connections.map (disable false))
      else fail ("Unknown protocol ".toList ++ protoforce.arg 1 ++ " in proto-force".toList)

/-- What the options on connections set. -/
def setConnections (connections : List Connection) (remoteRandom : Option Args)
    (np : VpnProfile) : VpnProfile :=
  { np with
    mConnections := connections
    mRemoteRandom := remoteRandom.isSome || np.mRemoteRandom }

/-- The remotes, the connection blocks and `proto-force`. -/
def convertConnections (order : HashOrder) (np : VpnProfile) : Parser VpnProfile := do
  let conns ← parseConnectionOptions order none
  let connectionBlocks ← getAllOption "connection" 1 1
  let connections ← connectionsOf order conns connectionBlocks
  let remoteRandom ← getOption "remote-random" 0 0
  let protoforce ← getOption "proto-force" 1 1
  let connections ← convertProtoForce connections protoforce
  return setConnections connections remoteRandom np

/-! ## What remains -/

/-- `ConfigParser.unsupportedOptions`. -/
def unsupportedOptions : List String := ["config", "tls-server"]

/-- `ConfigParser.ignoreOptions`. -/
def ignoreOptions : List String :=
  ["tls-client", "askpass", "auth-nocache", "up", "down", "route-up", "ipchange", "route-up",
    "route-pre-down", "auth-user-pass-verify", "block-outside-dns", "dhcp-release", "dhcp-renew",
    "dh", "group", "ip-win32", "management-hold", "management", "management-client",
    "management-query-remote", "management-query-passwords", "management-query-proxy",
    "management-external-key", "management-forget-disconnect", "management-signal",
    "management-log-cache", "management-up-down", "management-client-user",
    "management-client-group", "pause-exit", "plugin", "machine-readable-output", "persist-key",
    "push", "register-dns", "route-delay", "route-gateway", "route-metric", "route-method",
    "status", "script-security", "show-net-up", "suppress-timestamps", "tmp-dir", "tun-ipv6",
    "topology", "user", "win-sys"]

/-- The comment in front of the custom options. -/
def customComment : Text :=
  "# These options found in the config file do not map to config settings:\n".toList

/-- The options that remain become custom options. -/
def setCustomOptions (order : HashOrder) (options : Options) (np : VpnProfile) : VpnProfile :=
  { np with
    mCustomConfigOptions :=
      if options.length > 0 then
        customComment ++ np.mCustomConfigOptions ++
          (order.values options).flatMap getOptionStrings
      else np.mCustomConfigOptions
    mUseCustomConfig := options.length > 0 || np.mUseCustomConfig }

/-- `ConfigParser.checkIgnoreAndInvalidOptions`. -/
def checkIgnoreAndInvalidOptions (order : HashOrder) (np : VpnProfile) : Parser VpnProfile :=
  fun options =>
    match unsupportedOptions.find? fun option => (options.find option).isSome with
    | some option =>
        fail ("Unsupported Option ".toList ++ option.toList ++
          " encountered in config file. Aborting".toList)
    | none =>
        let options := ignoreOptions.foldl (fun o option => o.remove option) options
        .ok (setCustomOptions order options np, options)

/-- `ConfigParser.fixup`. -/
def fixup (np : VpnProfile) : VpnProfile :=
  { np with mRemoteCN := if np.mRemoteCN = np.mServerName then [] else np.mRemoteCN }

/-- Information of OpenVPN Access Server. -/
def setMeta (p : ConfigParser) (np : VpnProfile) : VpnProfile :=
  { np with
    mName := match p.metaGet "FRIENDLY_NAME".toList with
      | some (_ :: name :: _) => name
      | _ => np.mName
    mUsername := match p.metaGet "USERNAME".toList with
      | some (_ :: username :: _) => some username
      | _ => np.mUsername }

/-- The profile with which the conversion starts. -/
def convertedProfile : VpnProfile := VpnProfile.clearDefaults { mName := "converted Profile".toList }

/-- The groups of the conversion, in order. Only a static key has set the authentication type before
the certificates are read. -/
def convertOptions (order : HashOrder) (p : ConfigParser) : Parser VpnProfile := do
  let np ← convertRouting convertedProfile
  let np ← convertTlsAuth np
  let np ← convertDevice np
  let np ← convertCiphers np
  let (np, noauthtypeset) ← convertCertificates np (np.mAuthenticationType ≠ TYPE_STATICKEYS)
  let np ← convertVerification np
  let np ← convertConnecting np
  let np ← convertRemoteCertTls np
  let np ← convertUser np noauthtypeset
  let np ← convertConnections order np
  checkIgnoreAndInvalidOptions order (setMeta p np)

/-- `ConfigParser.convertProfile`. -/
def convertProfile (order : HashOrder) (p : ConfigParser) : Except Thrown VpnProfile :=
  (convertOptions order p p.options).map fun r => fixup r.1

/-- `parseConfig` followed by `convertProfile`. -/
def importConfig (order : HashOrder) (reader : Text) : Except Thrown VpnProfile :=
  match parseConfig reader with
  | .error e => .error e
  | .ok p => convertProfile order p

/-- The order in which the options were first given. -/
def insertionOrder : HashOrder := ⟨fun options => options.map Prod.snd, fun _ => .refl _⟩

/-- A context for examples. -/
def exampleContext : Context :=
  { cacheDir := "/cache".toList
    versionEnvString := "app 1.0".toList
    platformVersion := "33 13 arm64-v8a".toList
    usesystemproxy := true
    keyStoreCertificates := none
    keychainAccess := "keychain".toList }

/-- A test of the profile that an import returns and of its configuration file. -/
def Accepts (reader : Text) (test : VpnProfile → Text → Bool) : Bool :=
  match importConfig insertionOrder reader with
  | .error _ => false
  | .ok np =>
      match np.getConfigFile exampleContext false with
      | none => false
      | some cfg => test np cfg

theorem exists_of_accepts {reader : Text} {test : VpnProfile → Text → Bool}
    (h : Accepts reader test) :
    ∃ np cfg, importConfig insertionOrder reader = .ok np ∧
      np.getConfigFile exampleContext false = some cfg ∧ test np cfg := by
  rw [Accepts] at h
  split at h
  · exact nomatch h
  · rename_i np hnp
    split at h
    · exact nomatch h
    · rename_i cfg hcfg
      exact ⟨np, cfg, hnp, hcfg, h⟩

end PortVpn.Config
