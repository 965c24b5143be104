import Mathlib.Data.List.Induction
import PortVpn.Lib.Machine
import PortVpn.Service.OpenTun

/-!
# Connection attempts and their tun devices

The machine runs any number of attempts of the process: pushes, the question whether the
configuration is that of the open device, and, if it is not, the request for a new one. It keeps
the pushes of the attempt that is under way, so that what reaches the builder can be compared with
them.

The pushed state is reset at one place, late in `openTun`. `tun_fromOwnPushes` shows that every
device is configured from the pushes of its own attempt as long as no attempt leaves pushes behind;
`tun_counterexample` is an attempt that is answered `NOACTION` and does.
-/

set_option autoImplicit false

namespace PortVpn.Service

open PortVpn.Lib PortVpn.Net

/-- The messages of an attempt, and for `OPENTUN` what the call of `openTun` meets. -/
inductive TunEvent where
  | push (p : Push)
  | persistTunAction
  | openTun (extra : Text) (env : OpenEnv)

/-- The status that answers a message, and the builder's calls and the result of `openTun`. -/
inductive TunOut where
  | needok (status : Text)
  | opened (b : Builder) (result : TunResult)
  deriving DecidableEq, Repr

/-- The service and the attempt under way: its pushes, and whether the process has been told to
open a device. An exception ends the run. -/
structure Attempts where
  tun : TunState
  pushes : List Push := []
  asked : Bool := false
  crashed : Bool := false
  deriving DecidableEq, Repr

namespace Attempts

/-- `processNeedCommand` for one message of an attempt. -/
def step (cfg : Setting) : Machine Attempts TunEvent TunOut := fun a e =>
  if a.crashed then none
  else
    match e with
    | .push p =>
        if a.asked then none
        else
          let c := a.tun.push cfg p
          some ({ a with tun := c.state, pushes := a.pushes ++ [p], crashed := c.thrown },
            if c.thrown then [] else [.needok "ok".toList])
    | .persistTunAction =>
        if a.asked then none
        else
          let status := a.tun.getTunReopenStatus cfg
          -- after NOACTION the process keeps the open device, and its attempt is over
          some (if status = "NOACTION".toList then { a with pushes := [] }
            else { a with asked := true }, [.needok status])
    | .openTun extra env =>
        if !a.asked then none
        else if extra ≠ "tun".toList then
          some ({ a with pushes := [], asked := false }, [.needok "cancel".toList])
        else (a.tun.openTun cfg env).map fun o =>
          ({ tun := o.state, crashed := o.result == .thrown }, [.opened o.builder o.result])

/-- What a message needs and what it does. -/
theorem step_cases {cfg : Setting} {a a' : Attempts} {e : TunEvent} {out : List TunOut}
    (h : step cfg a e = some (a', out)) :
    a.crashed = false ∧
      match e with
      | .push p =>
          a' = { a with
            tun := (a.tun.push cfg p).state
            pushes := a.pushes ++ [p]
            crashed := (a.tun.push cfg p).thrown }
      | .persistTunAction =>
          a' = if a.tun.getTunReopenStatus cfg = "NOACTION".toList then { a with pushes := [] }
            else { a with asked := true }
      | .openTun extra env =>
          (extra ≠ "tun".toList ∧ a' = { a with pushes := [], asked := false } ∧
              out = [.needok "cancel".toList]) ∨
            extra = "tun".toList ∧ ∃ o, a.tun.openTun cfg env = some o ∧
              a' = { tun := o.state, crashed := o.result == .thrown } ∧
              out = [.opened o.builder o.result] := by
  rw [step.eq_def] at h
  split at h
  · cases h
  next hcrashed =>
    refine ⟨Bool.eq_false_of_not_eq_true hcrashed, ?_⟩
    cases e with
    | push p =>
        dsimp only at h
        split at h
        · cases h
        · exact (congrArg Prod.fst (Option.some.inj h)).symm
    | persistTunAction =>
        dsimp only at h
        split at h
        · cases h
        · exact (congrArg Prod.fst (Option.some.inj h)).symm
    | openTun extra env =>
        dsimp only at h
        split at h
        · cases h
        · split at h
          next hextra =>
            obtain ⟨rfl, rfl⟩ := Prod.ext_iff.1 (Option.some.inj h)
            exact Or.inl ⟨hextra, rfl, rfl⟩
          next hextra =>
            obtain ⟨o, ho, heq⟩ := Option.map_eq_some_iff.1 h
            obtain ⟨rfl, rfl⟩ := Prod.ext_iff.1 heq
            exact Or.inr ⟨not_not.1 hextra, o, ho, rfl, rfl⟩

end Attempts

/-! ## What an attempt pushes -/

namespace Push

/-- The DNS server of a message. -/
def dns : Push → Option Text
  | .dnsserver extra => some extra
  | _ => none

/-- The search domain of a message. -/
def domain : Push → Option Text
  | .dnsdomain extra => some extra
  | _ => none

end Push

/-- The service after an attempt's pushes and nothing else. -/
def configured (cfg : Setting) (pushes : List Push) : TunState :=
  pushes.foldl (fun s p => (s.push cfg p).state) {}

namespace TunState

/-- Nothing is left of any push. -/
structure Clear (s : TunState) : Prop where
  mDnslist : s.mDnslist = []
  mRoutes : s.mRoutes = {}
  mRoutesv6 : s.mRoutesv6 = {}
  mDomain : s.mDomain = none
  mLocalIP : s.mLocalIP = none
  mLocalIPv6 : s.mLocalIPv6 = none

/-- The IPv4 routes with the local networks. -/
def routesWithLocal (cfg : Setting) (env : OpenEnv) (s : TunState) : NetworkSpace :=
  match s.mLocalIP with
  | none => s.mRoutes
  | some ip => (addLocalNetworksToRoutes cfg ip env.getIfconfig s.mRoutes).1

/-- The `addRoute` calls for the routes of the state and the local networks. -/
def positiveRoutes (cfg : Setting) (env : OpenEnv) (s : TunState) : Option (List (Text × Int)) := do
  let ipsSorted ← generateIPList env.choices.1 env.choices.2
    (s.routesWithLocal cfg env).mIpAddresses
  let ipsSortedv6 ← generateIPList env.choicesv6.1 env.choicesv6.2 s.mRoutesv6.mIpAddresses
  some (routeCalls
    (s.samsungRoute cfg ((s.routesWithLocal cfg env).getPositiveIPList cfg.kitkat ipsSorted))
    (s.mRoutesv6.getPositiveIPList cfg.kitkat ipsSortedv6))

end TunState

/-- The builder has received nothing but the DNS servers, the routes and the search domain of the
pushes, and for an established device all of them. -/
structure FromPushes (cfg : Setting) (env : OpenEnv) (pushes : List Push) (b : Builder)
    (result : TunResult) : Prop where
  dnsServers : b.dnsServers = [] ∨ b.dnsServers = pushes.filterMap Push.dns
  routes : b.routes = [] ∨ some b.routes = (configured cfg pushes).positiveRoutes cfg env
  searchDomain : b.searchDomain = none ∨ b.searchDomain = (pushes.filterMap Push.domain).head?
  established : result = .established →
    b.dnsServers = pushes.filterMap Push.dns ∧
      some b.routes = (configured cfg pushes).positiveRoutes cfg env ∧
        b.searchDomain = (pushes.filterMap Push.domain).head?

/-- The length of an IPv6 address is no number, or the builder rejects the address. -/
def rejectsIPv6 (env : OpenEnv) (ip6 : Text) : Bool :=
  match split (· == '/') ip6 with
  | ip :: len :: _ =>
      match parseInt len with
      | some len => env.rejectsAddress ip len
      | none => true
  | _ => false

/-- `openTun` is not called, or returns before it resets the state: there is no address, or one is
rejected. -/
def EndsEarly (env : OpenEnv) (extra : Text) (s : TunState) : Prop :=
  extra ≠ "tun".toList ∨ (s.mLocalIP = none ∧ s.mLocalIPv6 = none) ∨
    (∃ ip ∈ s.mLocalIP, env.rejectsAddress ip.mIp ip.len = true) ∨
    ∃ ip6 ∈ s.mLocalIPv6, rejectsIPv6 env ip6 = true

/-- The attempt ends without a reset and something of its pushes is kept: its configuration is that
of the last device, or `openTun` ends early. -/
def LeavesBehind (a : Attempts) : TunEvent → Prop
  | .push _ => False
  | .persistTunAction => a.tun.mLastTunCfg = some a.tun.getTunConfigString ∧ ¬ a.tun.Clear
  | .openTun extra env => EndsEarly env extra a.tun ∧ ¬ a.tun.Clear

/-! ## Equal pushes, equal configuration -/

namespace TunState

/-- Two services with the same pushed configuration. The remote gateway is read only next to a
local address, which is set together with it. -/
structure Agrees (s t : TunState) : Prop where
  mDnslist : s.mDnslist = t.mDnslist
  mRoutes : s.mRoutes = t.mRoutes
  mRoutesv6 : s.mRoutesv6 = t.mRoutesv6
  mDomain : s.mDomain = t.mDomain
  mLocalIP : s.mLocalIP = t.mLocalIP
  mLocalIPv6 : s.mLocalIPv6 = t.mLocalIPv6
  mRemoteGW : s.mLocalIP ≠ none → s.mRemoteGW = t.mRemoteGW

theorem clear_iff_agrees {s : TunState} : s.Clear ↔ s.Agrees {} := by
  constructor
  · rintro ⟨h₁, h₂, h₃, h₄, h₅, h₆⟩
    exact ⟨h₁, h₂, h₃, h₄, h₅, h₆, fun h => absurd h₅ h⟩
  · rintro ⟨h₁, h₂, h₃, h₄, h₅, h₆, -⟩
    exact ⟨h₁, h₂, h₃, h₄, h₅, h₆⟩

/-- Calls that end alike. -/
def AgreesCalled (c d : Called) : Prop := c.thrown = d.thrown ∧ c.state.Agrees d.state

variable {cfg : Setting} {s t : TunState}

theorem addRoute_agrees (h : s.Agrees t) (dest mask gateway : Text) (device : Option Text) :
    AgreesCalled (s.addRoute dest mask gateway device) (t.addRoute dest mask gateway device) := by
  unfold addRoute
  cases CIDRIP.ofMask dest mask with
  | none => exact ⟨rfl, h⟩
  | some route =>
      cases IpAddress.ofCIDR ⟨gateway, 32⟩ false with
      | none => exact ⟨rfl, h⟩
      | some gatewayIP =>
          rw [h.mLocalIP, h.mRoutes]
          cases hip : t.mLocalIP with
          | none => exact ⟨rfl, h⟩
          | some ip =>
              have hgw : s.mRemoteGW = t.mRemoteGW := h.mRemoteGW (by simp [h.mLocalIP, hip])
              rw [hgw]
              dsimp only
              cases IpAddress.ofCIDR ip true with
              | none => exact ⟨rfl, h⟩
              | some localNet =>
                  dsimp only
                  split
                  · exact ⟨rfl, h⟩
                  · exact ⟨rfl, h.mDnslist, rfl, h.mRoutesv6, h.mDomain, rfl, h.mLocalIPv6,
                      fun _ => rfl⟩

theorem addRoutev6_agrees (h : s.Agrees t) (network : Text) (device : Option Text) :
    AgreesCalled (s.addRoutev6 cfg network device) (t.addRoutev6 cfg network device) := by
  unfold addRoutev6
  dsimp only
  split
  · exact ⟨rfl, h⟩
  · split
    · exact ⟨rfl, h⟩
    · exact ⟨rfl, h.mDnslist, h.mRoutes, by rw [h.mRoutesv6], h.mDomain, h.mLocalIP, h.mLocalIPv6,
        h.mRemoteGW⟩
  · exact ⟨rfl, h⟩
  · exact ⟨rfl, h⟩

theorem addInterfaceRoute_agrees (h : s.Agrees t) (ip : CIDRIP) :
    AgreesCalled (s.addInterfaceRoute cfg ip) (t.addInterfaceRoute cfg ip) := by
  unfold addInterfaceRoute
  rw [h.mRoutes]
  split
  · split
    · exact ⟨rfl, h⟩
    · exact ⟨rfl, h.mDnslist, rfl, h.mRoutesv6, h.mDomain, h.mLocalIP, h.mLocalIPv6, h.mRemoteGW⟩
  · exact ⟨rfl, h⟩

theorem setLocalIP_agrees (h : s.Agrees t) (ip netmask : Text) (mtu : Int) (mode : Text) :
    AgreesCalled (s.setLocalIP cfg ip netmask mtu mode) (t.setLocalIP cfg ip netmask mtu mode) := by
  have hset : ∀ cidr : CIDRIP,
      ({ s with mLocalIP := some cidr, mMtu := mtu, mRemoteGW := none } : TunState).Agrees
        { t with mLocalIP := some cidr, mMtu := mtu, mRemoteGW := none } := fun cidr =>
    ⟨h.mDnslist, h.mRoutes, h.mRoutesv6, h.mDomain, rfl, h.mLocalIPv6, fun _ => rfl⟩
  have haddRoute : ∀ s t : TunState, s.Agrees t → ∀ ip,
      AgreesCalled (s.addInterfaceRoute cfg ip) (t.addInterfaceRoute cfg ip) := fun _ _ h ip =>
    addInterfaceRoute_agrees h ip
  unfold setLocalIP
  split
  · dsimp only
    split
    · exact ⟨rfl, hset _⟩
    · obtain ⟨hthrown, hstate⟩ := haddRoute _ _ (hset _) _
      rw [hthrown]
      split
      · exact ⟨hthrown, hstate⟩
      · exact ⟨rfl, hstate.mDnslist, hstate.mRoutes, hstate.mRoutesv6, hstate.mDomain,
          hstate.mLocalIP, hstate.mLocalIPv6, fun _ => rfl⟩
  · exact ⟨rfl, h⟩

/-- A message has the same effect on two services with the same pushed configuration. -/
theorem push_agrees (h : s.Agrees t) (p : Push) : AgreesCalled (s.push cfg p) (t.push cfg p) := by
  cases p with
  | dnsserver extra =>
      exact ⟨rfl, by simp [push, addDNS, h.mDnslist], h.mRoutes, h.mRoutesv6, h.mDomain, h.mLocalIP,
        h.mLocalIPv6, h.mRemoteGW⟩
  | dnsdomain extra =>
      refine ⟨rfl, ?_⟩
      simp only [push, setDomain, h.mDomain]
      split
      · exact ⟨h.mDnslist, h.mRoutes, h.mRoutesv6, rfl, h.mLocalIP, h.mLocalIPv6, h.mRemoteGW⟩
      · exact h
  | route extra =>
      simp only [push]
      split
      · exact addRoute_agrees h _ _ _ _
      · exact addRoute_agrees h _ _ _ _
      · exact ⟨rfl, h⟩
  | route6 extra =>
      simp only [push]
      split
      · exact addRoutev6_agrees h _ _
      · exact ⟨rfl, h⟩
  | ifconfig extra =>
      simp only [push]
      split
      · split
        · exact setLocalIP_agrees h _ _ _ _
        · exact ⟨rfl, h⟩
      · exact ⟨rfl, h⟩
  | ifconfig6 extra =>
      exact ⟨rfl, h.mDnslist, h.mRoutes, h.mRoutesv6, h.mDomain, h.mLocalIP, rfl, h.mRemoteGW⟩

/-! ## DNS servers and domain -/

/-- A call keeps the DNS servers and the search domain. -/
def KeepsNames (s : TunState) (c : Called) : Prop :=
  c.state.mDnslist = s.mDnslist ∧ c.state.mDomain = s.mDomain

theorem addRoute_keepsNames (dest mask gateway : Text) (device : Option Text) :
    KeepsNames s (s.addRoute dest mask gateway device) := by
  rw [addRoute]
  dsimp only
  repeat' split
  all_goals exact ⟨rfl, rfl⟩

theorem addRoutev6_keepsNames (network : Text) (device : Option Text) :
    KeepsNames s (s.addRoutev6 cfg network device) := by
  unfold addRoutev6
  dsimp only
  repeat' split
  all_goals exact ⟨rfl, rfl⟩

theorem setLocalIP_keepsNames (ip netmask : Text) (mtu : Int) (mode : Text) :
    KeepsNames s (s.setLocalIP cfg ip netmask mtu mode) := by
  unfold setLocalIP addInterfaceRoute
  dsimp only
  repeat' split
  all_goals exact ⟨rfl, rfl⟩

theorem push_names (cfg : Setting) (s : TunState) (p : Push) :
    (s.push cfg p).state.mDnslist = s.mDnslist ++ p.dns.toList ∧
      (s.push cfg p).state.mDomain = s.mDomain.or p.domain := by
  have hkeep : ∀ c : Called, KeepsNames s c →
      c.state.mDnslist = s.mDnslist ++ (none : Option Text).toList ∧
        c.state.mDomain = s.mDomain.or none := fun c hc => by simpa [KeepsNames] using hc
  cases p with
  | dnsserver extra => simp [push, addDNS, Push.dns, Push.domain]
  | dnsdomain extra =>
      cases hd : s.mDomain <;> simp [push, setDomain, Push.dns, Push.domain, hd]
  | route extra =>
      refine hkeep _ ?_
      simp only [push]
      split
      · exact addRoute_keepsNames _ _ _ _
      · exact addRoute_keepsNames _ _ _ _
      · exact ⟨rfl, rfl⟩
  | route6 extra =>
      refine hkeep _ ?_
      simp only [push]
      split
      · exact addRoutev6_keepsNames _ _
      · exact ⟨rfl, rfl⟩
  | ifconfig extra =>
      refine hkeep _ ?_
      simp only [push]
      split
      · split
        · exact setLocalIP_keepsNames _ _ _ _
        · exact ⟨rfl, rfl⟩
      · exact ⟨rfl, rfl⟩
  | ifconfig6 extra => exact hkeep _ ⟨rfl, rfl⟩

end TunState

theorem configured_snoc (cfg : Setting) (pushes : List Push) (p : Push) :
    configured cfg (pushes ++ [p]) = ((configured cfg pushes).push cfg p).state := by
  simp [configured]

/-- The configured DNS servers are the pushed ones, in order, and the search domain is the first. -/
theorem configured_names (cfg : Setting) (pushes : List Push) :
    (configured cfg pushes).mDnslist = pushes.filterMap Push.dns ∧
      (configured cfg pushes).mDomain = (pushes.filterMap Push.domain).head? := by
  induction pushes using List.reverseRecOn with
  | nil => exact ⟨rfl, rfl⟩
  | append_singleton pushes p ih =>
      obtain ⟨hdns, hdomain⟩ := TunState.push_names cfg (configured cfg pushes) p
      rw [configured_snoc, hdns, hdomain, ih.1, ih.2, List.filterMap_append, List.filterMap_append,
        List.head?_append]
      cases p <;> exact ⟨rfl, rfl⟩

/-! ## What `openTun` hands over -/

/-- The builder knows no DNS server, no route and no search domain. -/
structure Builder.Blank (b : Builder) : Prop where
  dnsServers : b.dnsServers = []
  routes : b.routes = []
  searchDomain : b.searchDomain = none

namespace TunState

variable {cfg : Setting} {env : OpenEnv} {s t : TunState} {o : Opened}

/-- A clear state has no address: `openTun` changes nothing. -/
theorem openTun_of_clear (h : s.Clear) : s.openTun cfg env = some ⟨s, {}, .null⟩ := by
  rw [openTun, if_pos ⟨h.mLocalIP, h.mLocalIPv6⟩]

theorem reset_clear (s : TunState) : s.reset.Clear := ⟨rfl, rfl, rfl, rfl, rfl, rfl⟩

theorem openIPv4_ok {b : Builder} (h : s.openIPv4 cfg env = .ok (t, b)) :
    t = { s with mRoutes := s.routesWithLocal cfg env } ∧ Builder.Blank b := by
  rw [openIPv4] at h
  cases hip : s.mLocalIP with
  | none =>
      rw [hip] at h
      obtain ⟨rfl, rfl⟩ := Prod.ext_iff.1 (Except.ok.inj h)
      have hlocal : s.routesWithLocal cfg env = s.mRoutes := by rw [routesWithLocal, hip]
      exact ⟨by rw [hlocal, ← hip], rfl, rfl, rfl⟩
  | some ip =>
      rw [hip] at h
      dsimp only at h
      split at h
      · simp at h
      · split at h
        · simp at h
        · obtain ⟨rfl, rfl⟩ := Prod.ext_iff.1 (Except.ok.inj h)
          exact ⟨by simp [routesWithLocal, hip], rfl, rfl, rfl⟩

theorem openIPv4_error (h : s.openIPv4 cfg env = .error o) : Builder.Blank o.builder ∧
    (o.result = .thrown ∨ o.result = .null ∧
      ∃ ip ∈ s.mLocalIP, env.rejectsAddress ip.mIp ip.len = true) := by
  rw [openIPv4] at h
  cases hip : s.mLocalIP with
  | none => simp [hip] at h
  | some ip =>
      rw [hip] at h
      dsimp only at h
      split at h
      · obtain rfl := Except.error.inj h
        exact ⟨⟨rfl, rfl, rfl⟩, Or.inl rfl⟩
      · split at h
        next hrej =>
          obtain rfl := Except.error.inj h
          exact ⟨⟨rfl, rfl, rfl⟩, Or.inr ⟨rfl, ip, rfl, hrej⟩⟩
        next => simp at h

theorem openIPv6_ok {b b' : Builder} (h : s.openIPv6 env b = .ok b') (hb : b.Blank) :
    b'.Blank := by
  rw [openIPv6] at h
  repeat' split at h
  all_goals first
    | (obtain rfl := Except.ok.inj h
       exact ⟨hb.dnsServers, hb.routes, hb.searchDomain⟩)
    | simp at h

theorem openIPv6_error {b : Builder} (h : s.openIPv6 env b = .error o) : o.builder = b ∧
    (o.result = .thrown ∨ o.result = .null ∧ ∃ ip6 ∈ s.mLocalIPv6, rejectsIPv6 env ip6 = true) := by
  rw [openIPv6] at h
  cases hip : s.mLocalIPv6 with
  | none => simp [hip] at h
  | some ip6 =>
      rw [hip] at h
      dsimp only at h
      split at h
      next ip len rest hsplit =>
        cases hlen : parseInt len with
        | none =>
            rw [hlen] at h
            obtain rfl := Except.error.inj h
            exact ⟨rfl, Or.inr ⟨rfl, ip6, rfl, by simp [rejectsIPv6, hsplit, hlen]⟩⟩
        | some n =>
            rw [hlen] at h
            dsimp only at h
            split at h
            next hrej =>
              obtain rfl := Except.error.inj h
              exact ⟨rfl, Or.inr ⟨rfl, ip6, rfl, by simp [rejectsIPv6, hsplit, hlen, hrej]⟩⟩
            next => simp at h
      next =>
        obtain rfl := Except.error.inj h
        exact ⟨rfl, Or.inl rfl⟩

theorem finishTun_spec (cfg : Setting) (env : OpenEnv) (s : TunState) (b : Builder) :
    (finishTun cfg env s b).builder = b ∧
      ((finishTun cfg env s b).result = .thrown ∨ (finishTun cfg env s b).state.Clear) := by
  rw [finishTun]
  dsimp only
  split
  · exact ⟨rfl, Or.inl rfl⟩
  · generalize (if cfg.lollipop then setAllowedVpnPackages env.notInstalled s.mAllowedAppsVpn
      else (s.mAllowedAppsVpn, false)) = r
    cases r.2 with
    | true => exact ⟨rfl, Or.inl rfl⟩
    | false => exact ⟨rfl, Or.inr (reset_clear _)⟩

/-- How a call of `openTun` ends: early, without a device and with a builder that knows nothing
but addresses; on a bad MTU; or at its end, with everything handed over. -/
theorem openTun_cases (h : s.openTun cfg env = some o) :
    (o.builder.Blank ∧ o.result ≠ .established ∧
        (o.result = .thrown ∨ EndsEarly env "tun".toList s)) ∨
      (o.builder.dnsServers = s.mDnslist ∧ o.builder.routes = [] ∧
        o.builder.searchDomain = none ∧ o.result = .thrown) ∨
      (o.builder.dnsServers = s.mDnslist ∧ some o.builder.routes = s.positiveRoutes cfg env ∧
        o.builder.searchDomain = s.mDomain ∧ (o.result = .thrown ∨ o.state.Clear)) := by
  rw [openTun] at h
  split at h
  -- no address
  next hnone =>
    obtain rfl := Option.some.inj h
    exact Or.inl ⟨⟨rfl, rfl, rfl⟩, by simp, Or.inr (Or.inr (Or.inl hnone))⟩
  next =>
    cases h4 : s.openIPv4 cfg env with
    -- the IPv4 part ends the call
    | error o' =>
        rw [h4] at h
        obtain rfl := Option.some.inj h
        obtain ⟨hblank, hres⟩ := openIPv4_error h4
        refine Or.inl ⟨hblank, ?_, ?_⟩
        · rcases hres with hres | ⟨hres, -⟩ <;> simp [hres]
        · rcases hres with hres | ⟨-, hrej⟩
          · exact Or.inl hres
          · exact Or.inr (Or.inr (Or.inr (Or.inl hrej)))
    | ok r =>
        obtain ⟨t, b⟩ := r
        rw [h4] at h
        obtain ⟨rfl, hblank⟩ := openIPv4_ok h4
        dsimp only at h
        cases h6 : openIPv6 env { s with mRoutes := s.routesWithLocal cfg env } b with
        -- the IPv6 part ends the call
        | error o' =>
            rw [h6] at h
            obtain rfl := Option.some.inj h
            obtain ⟨hb, hres⟩ := openIPv6_error h6
            refine Or.inl ⟨hb ▸ hblank, ?_, ?_⟩
            · rcases hres with hres | ⟨hres, -⟩ <;> simp [hres]
            · rcases hres with hres | ⟨-, hrej⟩
              · exact Or.inl hres
              · exact Or.inr (Or.inr (Or.inr (Or.inr hrej)))
        | ok b' =>
            rw [h6] at h
            have hblank' := openIPv6_ok h6 hblank
            dsimp only at h
            split at h
            -- the builder refuses the MTU
            · obtain rfl := Option.some.inj h
              exact Or.inr (Or.inl ⟨rfl, hblank'.routes, hblank'.searchDomain, rfl⟩)
            · split at h
              -- the routes are handed over
              next ipsSorted ipsSortedv6 hlist hlistv6 =>
                obtain rfl := Option.some.inj h
                obtain ⟨hb, hend⟩ := finishTun_spec cfg env
                  { s with mRoutes := s.routesWithLocal cfg env } _
                refine Or.inr (Or.inr ⟨congrArg _ hb, ?_, congrArg _ hb, hend⟩)
                rw [congrArg Builder.routes hb, positiveRoutes, hlist, hlistv6]
                rfl
              next => simp at h

/-- A call that does not end early resets the state or throws. -/
theorem openTun_resets (h : s.openTun cfg env = some o) (hearly : ¬ EndsEarly env "tun".toList s) :
    o.result = .thrown ∨ o.state.Clear := by
  rcases openTun_cases h with ⟨-, -, hres⟩ | ⟨-, -, -, hres⟩ | ⟨-, -, -, hres⟩
  · exact hres.imp_right fun h => absurd h hearly
  · exact Or.inl hres
  · exact hres

theorem noaction_iff : s.getTunReopenStatus cfg = "NOACTION".toList ↔
    s.mLastTunCfg = some s.getTunConfigString := by
  rw [getTunReopenStatus]
  split
  next h => exact iff_of_true rfl h
  next h =>
    refine iff_of_false ?_ h
    split <;> decide

theorem positiveRoutes_agrees (cfg : Setting) (env : OpenEnv) (h : s.Agrees t) :
    s.positiveRoutes cfg env = t.positiveRoutes cfg env := by
  have hlocal : s.routesWithLocal cfg env = t.routesWithLocal cfg env := by
    rw [routesWithLocal, routesWithLocal, h.mLocalIP, h.mRoutes]
  have hsamsung : s.samsungRoute cfg = t.samsungRoute cfg := by
    unfold samsungRoute
    rw [h.mDnslist]
  rw [positiveRoutes, positiveRoutes, hlocal, hsamsung, h.mRoutesv6]

end TunState

/-! ## Runs -/

/-- The tun state holds the pushes of the attempt under way and nothing else, unless the run is
over. -/
def OwnPushes (cfg : Setting) (a : Attempts) : Prop :=
  a.crashed = false → a.tun.Agrees (configured cfg a.pushes)

/-- What a step hands over comes from the pushes of its attempt. -/
def HandsOwn (cfg : Setting) (x : Step Attempts TunEvent TunOut) : Prop :=
  ∀ extra env, x.label = .openTun extra env → ∀ b result, .opened b result ∈ x.out →
    FromPushes cfg env x.pre.pushes b result

section Steps

variable {cfg : Setting} {env : OpenEnv} {a a' : Attempts} {e : TunEvent} {out : List TunOut}

theorem fromPushes_of_agrees {o : Opened} (h : a.tun.openTun cfg env = some o)
    (hown : a.tun.Agrees (configured cfg a.pushes)) :
    FromPushes cfg env a.pushes o.builder o.result := by
  obtain ⟨hdns, hdomain⟩ := configured_names cfg a.pushes
  rw [← hown.mDnslist] at hdns
  rw [← hown.mDomain] at hdomain
  have hroutes := TunState.positiveRoutes_agrees cfg env hown
  rcases TunState.openTun_cases h with ⟨hb, hres, -⟩ | ⟨h₁, h₂, h₃, hres⟩ | ⟨h₁, h₂, h₃, -⟩
  · exact ⟨Or.inl hb.dnsServers, Or.inl hb.routes, Or.inl hb.searchDomain,
      fun h => absurd h hres⟩
  · exact ⟨Or.inr (h₁.trans hdns), Or.inl h₂, Or.inl h₃, fun h => by simp [hres] at h⟩
  · have h₁ := h₁.trans hdns
    have h₂ := h₂.trans hroutes
    have h₃ := h₃.trans hdomain
    exact ⟨Or.inr h₁, Or.inr h₂, Or.inr h₃, fun _ => ⟨h₁, h₂, h₃⟩⟩

/-- A step that leaves no pushes behind hands over the pushes of its attempt, and the next attempt
starts with none. -/
theorem step_ownPushes (h : Attempts.step cfg a e = some (a', out)) (hown : OwnPushes cfg a)
    (hclean : ¬ LeavesBehind a e) : OwnPushes cfg a' ∧ HandsOwn cfg ⟨a, e, a', out⟩ := by
  obtain ⟨hcrashed, hstep⟩ := Attempts.step_cases h
  have hagrees := hown hcrashed
  cases e with
  | push p =>
      -- every push is recorded beside the state that it changes
      change a' = _ at hstep
      subst hstep
      refine ⟨fun _ => ?_, fun _ _ he => nomatch he⟩
      rw [configured_snoc]
      exact (TunState.push_agrees hagrees p).2
  | persistTunAction =>
      change a' = _ at hstep
      subst hstep
      refine ⟨fun _ => ?_, fun _ _ he => nomatch he⟩
      split
      next hstatus =>
        -- the next attempt starts here, so nothing may be left over
        have hclear : a.tun.Clear := by
          by_contra hnot
          exact hclean ⟨TunState.noaction_iff.1 hstatus, hnot⟩
        exact TunState.clear_iff_agrees.1 hclear
      next => exact hagrees
  | openTun extra env =>
      rcases hstep with ⟨hextra, rfl, rfl⟩ | ⟨hextra, o, ho, rfl, rfl⟩
      · -- a device of another kind is refused before anything is read
        refine ⟨fun _ => ?_, fun _ _ _ b result hmem => by simp at hmem⟩
        have hclear : a.tun.Clear := by
          by_contra hnot
          exact hclean ⟨Or.inl hextra, hnot⟩
        exact TunState.clear_iff_agrees.1 hclear
      · -- a call of `openTun` resets the state unless it ends early or throws
        refine ⟨fun hcr => ?_, fun extra' env' he b result hmem => ?_⟩
        · have hnot : o.result ≠ .thrown := by simpa using hcr
          refine TunState.clear_iff_agrees.1 ?_
          by_cases hearly : EndsEarly env extra a.tun
          · have hclear : a.tun.Clear := by
              by_contra hcon
              exact hclean ⟨hearly, hcon⟩
            rw [TunState.openTun_of_clear hclear] at ho
            obtain rfl := Option.some.inj ho
            exact hclear
          · rw [hextra] at hearly
            exact (TunState.openTun_resets ho hearly).resolve_left hnot
        · obtain ⟨-, rfl⟩ := TunEvent.openTun.inj he
          obtain ⟨rfl, rfl⟩ := TunOut.opened.inj (List.mem_singleton.1 hmem)
          exact fromPushes_of_agrees ho hagrees

end Steps

/-- The service before the first attempt. -/
def Attempts.init (s : { s : TunState // s.Clear }) : Attempts := { tun := s.1 }

/-- **Every device from its own pushes.** In a run in which no attempt leaves pushes behind,
`openTun` hands over the DNS servers, the search domain and the routes that its own attempt has
pushed, with the local networks, and nothing else. -/
theorem tun_fromOwnPushes (cfg : Setting) (s : { s : TunState // s.Clear }) (ls : List TunEvent)
    (hclean : ∀ x ∈ Machine.history (Attempts.step cfg) (Attempts.init s) ls,
      ¬ LeavesBehind x.pre x.label) :
    ∀ x ∈ Machine.history (Attempts.step cfg) (Attempts.init s) ls, HandsOwn cfg x := by
  have hinit : OwnPushes cfg (Attempts.init s) := fun _ => TunState.clear_iff_agrees.1 s.2
  intro x hx
  have hinv := Machine.history_inv (I := OwnPushes cfg)
    (C := fun x => ¬ LeavesBehind x.pre x.label)
    (fun y hy hown hC => (step_ownPushes hy hown hC).1) hinit hclean x hx
  exact (step_ownPushes (Machine.takes_of_mem_history hx) hinv.1 (hclean x hx)).2

/-! ## An attempt that leaves its pushes behind -/

instance (s : TunState) : Decidable s.Clear :=
  decidable_of_iff (s.mDnslist = [] ∧ s.mRoutes = {} ∧ s.mRoutesv6 = {} ∧ s.mDomain = none ∧
      s.mLocalIP = none ∧ s.mLocalIPv6 = none)
    ⟨fun ⟨h₁, h₂, h₃, h₄, h₅, h₆⟩ => ⟨h₁, h₂, h₃, h₄, h₅, h₆⟩,
      fun ⟨h₁, h₂, h₃, h₄, h₅, h₆⟩ => ⟨h₁, h₂, h₃, h₄, h₅, h₆⟩⟩

instance (env : OpenEnv) (extra : Text) (s : TunState) : Decidable (EndsEarly env extra s) := by
  rw [EndsEarly]
  infer_instance

instance (a : Attempts) (e : TunEvent) : Decidable (LeavesBehind a e) :=
  match e with
  | .push _ => inferInstanceAs (Decidable False)
  | .persistTunAction => inferInstanceAs (Decidable (_ ∧ ¬ _))
  | .openTun _ _ => inferInstanceAs (Decidable (_ ∧ ¬ _))

/-- A recent device, without name resolution. -/
def phone : Setting where
  sdkInt := 29
  release := "10".toList
  brand := "google".toList
  mAllowLocalLAN := false
  mAllowedAppsVpnAreDisallowed := true
  getAllByName := fun _ => .unknownHost

/-- A call of `openTun` that nothing disturbs. -/
def undisturbed : OpenEnv where
  getIfconfig := []
  rejectsAddress := fun _ _ => false
  rejectsMtu := fun _ => false
  notInstalled := fun _ => false
  choices := (0, List.replicate 4 0)
  choicesv6 := (0, [])
  establishes := true

def fresh : { s : TunState // s.Clear } := ⟨{}, rfl, rfl, rfl, rfl, rfl, rfl⟩

/-- One attempt with an address and a DNS server. -/
def pushesWith (dns : String) : List TunEvent :=
  [.push (.ifconfig "10.8.0.2 255.255.255.0 1500 subnet".toList), .push (.dnsserver dns.toList),
    .persistTunAction]

theorem tun_fromOwnPushes_once :
    (Machine.history (Attempts.step phone) (Attempts.init fresh)
      (pushesWith "10.8.0.1" ++ [.openTun "tun".toList undisturbed])).length = 4 ∧
    ∀ x ∈ Machine.history (Attempts.step phone) (Attempts.init fresh)
      (pushesWith "10.8.0.1" ++ [.openTun "tun".toList undisturbed]), HandsOwn phone x :=
  ⟨by decide +kernel, tun_fromOwnPushes phone fresh _ (by decide +kernel)⟩

/-- **A DNS server of an earlier attempt.** The second attempt is answered `NOACTION`; the device of
the third gets the DNS server of the second one too. -/
theorem tun_counterexample :
    ∃ ls, ∃ x ∈ Machine.history (Attempts.step phone) (Attempts.init fresh) ls,
      ¬ HandsOwn phone x := by
  refine ⟨pushesWith "10.8.0.1" ++ [.openTun "tun".toList undisturbed] ++
    pushesWith "10.8.0.1" ++ pushesWith "10.8.0.9" ++ [.openTun "tun".toList undisturbed],
    _, List.getLast_mem (by decide +kernel), fun h => ?_⟩
  have hown := h _ _ rfl
    { addresses := [("10.8.0.2".toList, 24)], dnsServers := ["10.8.0.1".toList, "10.8.0.9".toList],
      mtu := some 1500, routes := [("10.8.0.0".toList, 24)] } .established (by decide +kernel)
  exact absurd (hown.established rfl).1 (by decide +kernel)

end PortVpn.Service
