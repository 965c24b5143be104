import PortVpn.Service.TunState

/-!
# Opening the tun device

`openTun` hands the pushed configuration to a `VpnService.Builder` and resets it, unless it returns
or throws before that. The builder is modelled by the calls it received.
-/

set_option autoImplicit false

namespace PortVpn.Service

open PortVpn.Lib PortVpn.Net

/-- What one call of `openTun` meets: the network interfaces, the checks of the builder, the apps
that are gone, the order of the two priority queues, and whether Android establishes the device. -/
structure OpenEnv where
  getIfconfig : List (Option Text)
  rejectsAddress : Text → Int → Bool
  rejectsMtu : Int → Bool
  notInstalled : Text → Bool
  choices : Nat × List Nat
  choicesv6 : Nat × List Nat
  establishes : Bool

/-- The calls that a `VpnService.Builder` received. -/
structure Builder where
  addresses : List (Text × Int) := []
  dnsServers : List Text := []
  mtu : Option Int := none
  routes : List (Text × Int) := []
  searchDomain : Option Text := none
  deriving DecidableEq, Repr

/-- What comes of `openTun`: a device, `null`, or an exception. -/
inductive TunResult where
  | established
  | null
  | thrown
  deriving DecidableEq, Repr

/-- A call of `openTun` that is over. -/
structure Opened where
  state : TunState
  builder : Builder
  result : TunResult
  deriving DecidableEq, Repr

namespace TunState

/-- Interfaces whose networks are not local networks. -/
def ignoredInterface (intf : Option Text) : Bool :=
  match intf with
  | none => true
  | some intf =>
      intf == "lo".toList || "tun".toList.isPrefixOf intf || "rmnet".toList.isPrefixOf intf

/-- The routes for the network of one interface. -/
def addLocalNetwork (cfg : Setting) (mRoutes : NetworkSpace) (ip netMask : Text) :
    Option NetworkSpace :=
  if !cfg.kitkat && !cfg.mAllowLocalLAN then
    (CIDRIP.ofMask ip netMask).bind fun c => mRoutes.addIPSplit c true
  else if cfg.kitkat && cfg.mAllowLocalLAN then
    (CIDRIP.ofMask ip netMask).bind fun c => mRoutes.addIP c false
  else some mRoutes

/-- `addLocalNetworksToRoutes`, over the interfaces in groups of three: the routes, and whether it
threw. -/
def addLocalNetworksToRoutes (cfg : Setting) (mLocalIP : CIDRIP) :
    List (Option Text) → NetworkSpace → NetworkSpace × Bool
  | [], mRoutes => (mRoutes, false)
  | intf :: ipAddr :: netMask :: localRoutes, mRoutes =>
      match ignoredInterface intf, ipAddr, netMask with
      | false, some ipAddr, some netMask =>
          -- the tunnel's own network
          if ipAddr = mLocalIP.mIp then addLocalNetworksToRoutes cfg mLocalIP localRoutes mRoutes
          else
            match addLocalNetwork cfg mRoutes ipAddr netMask with
            -- an address or a netmask that cannot be read
            | none => (mRoutes, true)
            | some mRoutes => addLocalNetworksToRoutes cfg mLocalIP localRoutes mRoutes
      | _, _, _ => addLocalNetworksToRoutes cfg mLocalIP localRoutes mRoutes
  -- a group of one or two: the index is out of bounds
  | _, mRoutes => (mRoutes, true)

/-- The IPv4 address: an early end of the call, or the state and the builder to go on with. -/
def openIPv4 (cfg : Setting) (env : OpenEnv) (s : TunState) : Except Opened (TunState × Builder) :=
  match s.mLocalIP with
  | none => .ok (s, {})
  | some ip =>
      let r := addLocalNetworksToRoutes cfg ip env.getIfconfig s.mRoutes
      let s := { s with mRoutes := r.1 }
      if r.2 then .error ⟨s, {}, .thrown⟩
      else if env.rejectsAddress ip.mIp ip.len then .error ⟨s, {}, .null⟩
      else .ok (s, { addresses := [(ip.mIp, ip.len)] })

/-- The IPv6 address. A length that is no number is an `IllegalArgumentException` too. -/
def openIPv6 (env : OpenEnv) (s : TunState) (b : Builder) : Except Opened Builder :=
  match s.mLocalIPv6 with
  | none => .ok b
  | some mLocalIPv6 =>
      match split (· == '/') mLocalIPv6 with
      | ip :: len :: _ =>
          match parseInt len with
          | some len =>
              if env.rejectsAddress ip len then .error ⟨s, b, .null⟩
              else .ok { b with addresses := b.addresses ++ [(ip, len)] }
          -- the exception of `parseInt` is caught with that of `addAddress`
          | none => .error ⟨s, b, .null⟩
      -- without a slash there is no second part
      | _ => .error ⟨s, b, .thrown⟩

/-- The MTU for the builder. -/
def builderMtu (cfg : Setting) (s : TunState) : Int :=
  if cfg.brokenKitkat ∧ s.mMtu < 1280 then 1280 else s.mMtu

/-- Samsung's Lollipop needs a route to the first DNS server. -/
def samsungRoute (cfg : Setting) (s : TunState) (positiveIPv4Routes : List IpAddress) :
    List IpAddress :=
  if cfg.brand == "samsung".toList && cfg.lollipop then
    match s.mDnslist with
    | [] => positiveIPv4Routes
    | dns :: _ =>
        match IpAddress.ofCIDR ⟨dns, 32⟩ true with
        | none => positiveIPv4Routes
        | some dnsServer =>
            if positiveIPv4Routes.any fun net => net.containsNet dnsServer then positiveIPv4Routes
            else positiveIPv4Routes ++ [dnsServer]
  else positiveIPv4Routes

/-- `224.0.0.0/3`. -/
def multicastRange : IpAddress := ⟨0xE0000000, 3, true, true⟩

/-- The `addRoute` calls. -/
def routeCalls (routes routesv6 : List IpAddress) : List (Text × Int) :=
  ((routes.filter fun route => !multicastRange.containsNet route).map fun route =>
      (route.getIPv4Address, route.networkMask)) ++
    routesv6.map fun route6 => (route6.getIPv6Address, route6.networkMask)

/-- The loop of `setAllowedVpnPackages`: the apps that stay, and whether it threw. An app that is
gone is removed from the set under iteration, which only the last one survives. -/
def setAllowedVpnPackages (notInstalled : Text → Bool) : List Text → List Text × Bool
  | [] => ([], false)
  | pkg :: pkgs =>
      if notInstalled pkg then (pkgs, pkgs != [])
      else
        let r := setAllowedVpnPackages notInstalled pkgs
        (pkg :: r.1, r.2)

/-- The reset at the end. -/
def reset (s : TunState) : TunState :=
  { s with
    mLastTunCfg := some s.getTunConfigString
    mDnslist := []
    mRoutes := s.mRoutes.clear
    mRoutesv6 := s.mRoutesv6.clear
    mLocalIP := none
    mLocalIPv6 := none
    mDomain := none }

/-- The part of `openTun` after the routes are known. -/
def finishTun (cfg : Setting) (env : OpenEnv) (s : TunState) (b : Builder) : Opened :=
  -- the log message reads the IPv4 address without a check
  if s.mLocalIP = none then ⟨s, b, .thrown⟩
  else
    let r := if cfg.lollipop then setAllowedVpnPackages env.notInstalled s.mAllowedAppsVpn
      else (s.mAllowedAppsVpn, false)
    let s := { s with mAllowedAppsVpn := r.1 }
    if r.2 then ⟨s, b, .thrown⟩
    else ⟨s.reset, b, if env.establishes then .established else .null⟩

/-- `openTun`; `none` if the choices for the queues do not last. -/
def openTun (cfg : Setting) (env : OpenEnv) (s : TunState) : Option Opened :=
  if s.mLocalIP = none ∧ s.mLocalIPv6 = none then some ⟨s, {}, .null⟩
  else
    match openIPv4 cfg env s with
    | .error o => some o
    | .ok (s, b) =>
        match openIPv6 env s b with
        | .error o => some o
        | .ok b =>
            let b := { b with dnsServers := s.mDnslist }
            -- `setMtu` stands outside of any try
            if env.rejectsMtu (s.builderMtu cfg) then some ⟨s, b, .thrown⟩
            else
              match generateIPList env.choices.1 env.choices.2 s.mRoutes.mIpAddresses,
                generateIPList env.choicesv6.1 env.choicesv6.2 s.mRoutesv6.mIpAddresses with
              | some ipsSorted, some ipsSortedv6 =>
                  let routes := s.samsungRoute cfg
                    (s.mRoutes.getPositiveIPList cfg.kitkat ipsSorted)
                  some (finishTun cfg env s { b with
                    mtu := some (s.builderMtu cfg)
                    routes := routeCalls routes
                      (s.mRoutesv6.getPositiveIPList cfg.kitkat ipsSortedv6)
                    searchDomain := s.mDomain })
              | _, _ => none

end TunState

end PortVpn.Service
