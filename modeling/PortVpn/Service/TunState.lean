import PortVpn.Net.NetworkSpace

/-!
# The pushed configuration of the tun device

The OpenVPN process pushes addresses, routes and name servers one by one through the management
interface. `OpenVPNService` collects them until the process asks whether the configuration is the
one of the open device, and then opens a new one. A method that throws keeps what it has assigned
before.
-/

set_option autoImplicit false

namespace PortVpn.Service

open PortVpn.Lib PortVpn.Net

/-- What `InetAddress.getAllByName` finds first for a name. -/
inductive HostAddress where
  | unknownHost
  | inet4
  | inet6 (address : List UInt8)
  deriving DecidableEq, Repr

/-- The device and the settings of the profile. -/
structure Setting where
  sdkInt : Nat
  release : Text
  brand : Text
  mAllowLocalLAN : Bool
  mAllowedAppsVpnAreDisallowed : Bool
  getAllByName : Text → HostAddress

namespace Setting

def kitkat (cfg : Setting) : Bool := 19 ≤ cfg.sdkInt

def lollipop (cfg : Setting) : Bool := 21 ≤ cfg.sdkInt

/-- Android 4.4 before 4.4.3. -/
def brokenKitkat (cfg : Setting) : Bool :=
  cfg.sdkInt == 19 && !("4.4.3".toList.isPrefixOf cfg.release) &&
    !("4.4.4".toList.isPrefixOf cfg.release) && !("4.4.5".toList.isPrefixOf cfg.release) &&
    !("4.4.6".toList.isPrefixOf cfg.release)

end Setting

/-- What the service has been told about the tun device, the configuration of the last one, and
the apps of the profile. -/
structure TunState where
  mDnslist : List Text := []
  mRoutes : NetworkSpace := {}
  mRoutesv6 : NetworkSpace := {}
  mDomain : Option Text := none
  mLocalIP : Option CIDRIP := none
  mLocalIPv6 : Option Text := none
  mMtu : Int := 0
  mLastTunCfg : Option Text := none
  mRemoteGW : Option Text := none
  mAllowedAppsVpn : List Text := []
  deriving DecidableEq, Repr

/-- The state after a method call, and whether the call threw. -/
structure Called where
  state : TunState
  thrown : Bool := false
  deriving DecidableEq, Repr

namespace TunState

def addDNS (s : TunState) (dns : Text) : TunState := { s with mDnslist := s.mDnslist ++ [dns] }

def setDomain (s : TunState) (domain : Text) : TunState :=
  if s.mDomain = none then { s with mDomain := some domain } else s

def isAndroidTunDevice (device : Option Text) : Bool :=
  match device with
  | none => false
  | some device =>
      "tun".toList.isPrefixOf device || device == "(null)".toList ||
        device == "vpnservice-tun".toList

/-- `OpenVPNService.addRoute` with four arguments. The address is written in the default locale and
at once read back, so that the locale does not count (`addIP_normalise`). -/
def addRoute (s : TunState) (dest mask gateway : Text) (device : Option Text) : Called :=
  match CIDRIP.ofMask dest mask, IpAddress.ofCIDR ⟨gateway, 32⟩ false with
  | some route, some gatewayIP =>
      match s.mLocalIP with
      -- without a local address an error is logged and the route dropped
      | none => { state := s }
      | some mLocalIP =>
          match IpAddress.ofCIDR mLocalIP true with
          | none => { state := s, thrown := true }
          | some localNet =>
              let included := isAndroidTunDevice device || localNet.containsNet gatewayIP ||
                gateway == "255.255.255.255".toList || some gateway == s.mRemoteGW
              match (route.normalise .us).bind fun r => s.mRoutes.addIP r.2 included with
              | none => { state := s, thrown := true }
              | some mRoutes => { state := { s with mRoutes := mRoutes } }
  | _, _ => { state := s, thrown := true }

/-- `OpenVPNService.addRoutev6`. -/
def addRoutev6 (cfg : Setting) (s : TunState) (network : Text) (device : Option Text) : Called :=
  let v6parts := split (· == '/') network
  match v6parts[0]?.map cfg.getAllByName with
  | some .unknownHost => { state := s }
  | some (.inet6 ip) =>
      match v6parts[1]?.bind parseInt with
      | none => { state := s, thrown := true }
      | some mask =>
          { state := { s with
              mRoutesv6 := s.mRoutesv6.addIPv6 ip mask (isAndroidTunDevice device) } }
  | some .inet4 | none => { state := s, thrown := true }

/-- The length of a local address whose netmask is not one: the netmask is the other end of a
small network, or the network is a single address. -/
def looseLen (ip : CIDRIP) (netMaskAsInt : Int) (mode : Text) : Option Int :=
  let masklen : Int := if mode = "net30".toList then 30 else 31
  let mask : Int := if mode = "net30".toList then -4 else -2
  ip.getInt.map fun n => if andLong netMaskAsInt mask = andLong n mask then masklen else 32

/-- Lollipop does not route the network of the tun device itself. As for a route, the locale does
not count. -/
def addInterfaceRoute (cfg : Setting) (s : TunState) (ip : CIDRIP) : Called :=
  if ip.len ≤ 31 ∧ cfg.lollipop then
    match (ip.normalise .us).bind fun r => s.mRoutes.addIP r.2 true with
    | none => { state := s, thrown := true }
    | some mRoutes => { state := { s with mRoutes := mRoutes } }
  else { state := s }

/-- `OpenVPNService.setLocalIP` with four arguments. -/
def setLocalIP (cfg : Setting) (s : TunState) (ip netmask : Text) (mtu : Int) (mode : Text) :
    Called :=
  match CIDRIP.ofMask ip netmask, CIDRIP.getIntOf netmask with
  | some cidr, some netMaskAsInt =>
      let s := { s with mLocalIP := some cidr, mMtu := mtu, mRemoteGW := none }
      let len :=
        -- what came for the netmask may be the address of the peer
        if cidr.len = 32 ∧ netmask ≠ "255.255.255.255".toList then looseLen cidr netMaskAsInt mode
        else some cidr.len
      match len with
      | none => { state := s, thrown := true }
      | some len =>
          let cidr := { cidr with len := len }
          let c := addInterfaceRoute cfg { s with mLocalIP := some cidr } cidr
          if c.thrown then c else { state := { c.state with mRemoteGW := some netmask } }
  | _, _ => { state := s, thrown := true }

def setLocalIPv6 (s : TunState) (ipv6addr : Text) : TunState :=
  { s with mLocalIPv6 := some ipv6addr }

end TunState

/-! ## Messages -/

/-- The messages that push a part of the configuration, each with the text after the colon. -/
inductive Push where
  | dnsserver (extra : Text)
  | dnsdomain (extra : Text)
  | route (extra : Text)
  | route6 (extra : Text)
  | ifconfig (extra : Text)
  | ifconfig6 (extra : Text)
  deriving DecidableEq, Repr

namespace TunState

/-- The cases of `processNeedCommand` that push. -/
def push (cfg : Setting) (s : TunState) : Push → Called
  | .dnsserver extra => { state := s.addDNS extra }
  | .dnsdomain extra => { state := s.setDomain extra }
  | .route extra =>
      match split (· == ' ') extra with
      | [dest, mask, gateway, _, device] => s.addRoute dest mask gateway (some device)
      -- any other number of parts from three on has no device
      | dest :: mask :: gateway :: _ => s.addRoute dest mask gateway none
      | _ => { state := s }
  | .route6 extra =>
      match split (· == ' ') extra with
      | network :: device :: _ => s.addRoutev6 cfg network (some device)
      | _ => { state := s, thrown := true }
  | .ifconfig extra =>
      match split (· == ' ') extra with
      | ip :: netmask :: mtu :: rest =>
          match parseInt mtu, rest with
          | some mtu, mode :: _ => s.setLocalIP cfg ip netmask mtu mode
          | _, _ => { state := s, thrown := true }
      | _ => { state := s, thrown := true }
  | .ifconfig6 extra => { state := s.setLocalIPv6 extra }

/-- `TextUtils.join`. -/
def join (networks : List IpAddress) : Text :=
  "|".toList.intercalate (networks.map IpAddress.toText)

/-- `getTunConfigString`. -/
def getTunConfigString (s : TunState) : Text :=
  "TUNCFG UNQIUE STRING ips:".toList ++ (s.mLocalIP.map CIDRIP.toText).getD [] ++
    s.mLocalIPv6.getD [] ++
    "routes: ".toList ++ join (s.mRoutes.getNetworks true) ++ join (s.mRoutesv6.getNetworks true) ++
    "excl. routes:".toList ++ join (s.mRoutes.getNetworks false) ++
    join (s.mRoutesv6.getNetworks false) ++
    "dns: ".toList ++ "|".toList.intercalate s.mDnslist ++
    "domain: ".toList ++ s.mDomain.getD "null".toList ++
    "mtu: ".toList ++ decimal s.mMtu

/-- `getTunReopenStatus`. -/
def getTunReopenStatus (cfg : Setting) (s : TunState) : Text :=
  if s.mLastTunCfg = some s.getTunConfigString then "NOACTION".toList
  else if cfg.brokenKitkat then "OPEN_AFTER_CLOSE".toList
  else "OPEN_BEFORE_CLOSE".toList

end TunState

end PortVpn.Service
