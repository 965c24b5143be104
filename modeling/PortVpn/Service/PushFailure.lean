import PortVpn.Net.TreeSet
import PortVpn.Service.TunAttempts

/-!
# Pushes that fail

A message that pushes a part of the configuration may throw, and may change the configuration
before it does. For each kind of message this file says which texts make it throw and which
malformed texts it takes over all the same (`push_contained_iff`). What counts as the text of an
address is left open.
-/

set_option autoImplicit false

namespace PortVpn.Service

open PortVpn.Lib PortVpn.Net

/-- The pushed configuration of two services is the same. -/
structure SameConfig (s t : TunState) : Prop where
  mDnslist : t.mDnslist = s.mDnslist
  mDomain : t.mDomain = s.mDomain
  mRoutes : t.mRoutes = s.mRoutes
  mRoutesv6 : t.mRoutesv6 = s.mRoutesv6
  mLocalIP : t.mLocalIP = s.mLocalIP
  mLocalIPv6 : t.mLocalIPv6 = s.mLocalIPv6
  mMtu : t.mMtu = s.mMtu
  mRemoteGW : t.mRemoteGW = s.mRemoteGW

theorem SameConfig.refl (s : TunState) : SameConfig s s := ⟨rfl, rfl, rfl, rfl, rfl, rfl, rfl, rfl⟩

/-! ## Well-formed messages -/

/-- An address and the length of a prefix. -/
def IsNetwork (isAddress : Text → Prop) (t : Text) : Prop :=
  match split (· == '/') t with
  | ip :: len :: _ => isAddress ip ∧ (parseInt len).isSome
  | _ => False

/-- The fields of a message are there, its numbers are numbers and its addresses addresses. -/
def Push.WellFormed (isAddress : Text → Prop) : Push → Prop
  | .dnsserver extra => isAddress extra
  | .dnsdomain extra => extra ≠ []
  | .route extra =>
      match split (· == ' ') extra with
      | dest :: mask :: gateway :: _ => isAddress dest ∧ isAddress mask ∧ isAddress gateway
      | _ => False
  | .route6 extra =>
      match split (· == ' ') extra with
      | network :: _ :: _ => IsNetwork isAddress network
      | _ => False
  | .ifconfig extra =>
      match split (· == ' ') extra with
      | ip :: netmask :: mtu :: _ :: _ =>
          isAddress ip ∧ isAddress netmask ∧ (parseInt mtu).isSome
      | _ => False
  | .ifconfig6 extra => IsNetwork isAddress extra

/-! ## When a push fails -/

namespace TunState

/-- A call is contained: it does not throw, and keeps the configuration unless the message is well
formed. -/
def Contained (s : TunState) (wellFormed : Prop) (c : Called) : Prop :=
  c.thrown = false ∧ (¬ wellFormed → SameConfig s c.state)

/-- A route cannot be read, or is malformed and new. Without a local address no route is added,
although the netmask and the gateway are read. -/
def RouteFails (s : TunState) (wellFormed : Prop) (dest mask gateway : Text) : Prop :=
  CIDRIP.ofMask dest mask = none ∨ CIDRIP.getIntOf gateway = none ∨
    ∃ ip ∈ s.mLocalIP, CIDRIP.getIntOf ip.mIp = none ∨
      match (CIDRIP.ofMask dest mask).bind fun route => route.network true with
      | none => True
      | some net => ¬ wellFormed ∧ ¬ s.mRoutes.Knows net

/-- A route to an IPv6 network cannot be read, or is malformed and new. A name that is not known is
logged. -/
def Route6Fails (cfg : Setting) (s : TunState) (wellFormed : Prop) (network : Text) : Prop :=
  match split (· == '/') network with
  | [] => True
  | ip :: len =>
      match cfg.getAllByName ip with
      | .unknownHost => False
      | .inet4 => True
      | .inet6 address =>
          match len.head?.bind parseInt with
          | none => True
          | some mask => ¬ wellFormed ∧ ¬ s.mRoutesv6.Knows (.ofInet6 address mask true)

/-- The local address with the length that `setLocalIP` gives it in the end. -/
def localCIDR (ip netmask mode : Text) : Option CIDRIP :=
  (CIDRIP.ofMask ip netmask).bind fun cidr =>
    (CIDRIP.getIntOf netmask).bind fun netMaskAsInt =>
      (if cidr.len = 32 ∧ netmask ≠ "255.255.255.255".toList then looseLen cidr netMaskAsInt mode
        else some cidr.len).map fun len => { cidr with len := len }

/-- The local address cannot be read, or is malformed and not what is already stored. -/
def IfconfigFails (cfg : Setting) (s : TunState) (wellFormed : Prop) (ip netmask : Text) (mtu : Int)
    (mode : Text) : Prop :=
  match localCIDR ip netmask mode with
  | none => True
  | some cidr =>
      let routed := cidr.len ≤ 31 ∧ cfg.lollipop
      (routed ∧ cidr.network true = none) ∨
        (¬ wellFormed ∧ ¬ (s.mLocalIP = some cidr ∧ s.mMtu = mtu ∧ s.mRemoteGW = some netmask ∧
          (routed → ∃ net ∈ cidr.network true, s.mRoutes.Knows net)))

/-- A message throws, or is malformed and changes the configuration. -/
def PushFails (cfg : Setting) (isAddress : Text → Prop) (s : TunState) (p : Push) : Prop :=
  match p with
  | .dnsserver extra => ¬ isAddress extra
  | .dnsdomain extra => extra = [] ∧ s.mDomain = none
  | .route extra =>
      match split (· == ' ') extra with
      | dest :: mask :: gateway :: _ =>
          s.RouteFails (p.WellFormed isAddress) dest mask gateway
      | _ => False
  | .route6 extra =>
      match split (· == ' ') extra with
      | network :: _ :: _ => s.Route6Fails cfg (p.WellFormed isAddress) network
      | _ => True
  | .ifconfig extra =>
      match split (· == ' ') extra with
      | ip :: netmask :: mtu :: mode :: _ =>
          match parseInt mtu with
          | none => True
          | some mtu => s.IfconfigFails cfg (p.WellFormed isAddress) ip netmask mtu mode
      | _ => True
  | .ifconfig6 extra => ¬ p.WellFormed isAddress ∧ s.mLocalIPv6 ≠ some extra

variable {cfg : Setting} {isAddress : Text → Prop} {s : TunState} {wellFormed : Prop}

/-- A call that throws is not contained. -/
theorem not_contained_of_thrown {c : Called} (h : c.thrown = true) : ¬ s.Contained wellFormed c :=
  fun hc => absurd (h.symm.trans hc.1) (by simp)

theorem contained_of_same {c : Called} (ht : c.thrown = false) (hs : c.state = s) :
    s.Contained wellFormed c :=
  ⟨ht, fun _ => hs ▸ SameConfig.refl s⟩

theorem addRoute_contained_iff (dest mask gateway : Text) (device : Option Text) :
    s.Contained wellFormed (s.addRoute dest mask gateway device) ↔
      ¬ s.RouteFails wellFormed dest mask gateway := by
  rw [addRoute, RouteFails]
  have hgateway : IpAddress.ofCIDR ⟨gateway, 32⟩ false =
      (CIDRIP.getIntOf gateway).map fun n => ⟨n, 32, false, true⟩ := rfl
  rw [hgateway]
  cases CIDRIP.ofMask dest mask with
  | none => exact iff_of_false (not_contained_of_thrown rfl) (by simp)
  | some route =>
      cases CIDRIP.getIntOf gateway with
      | none => exact iff_of_false (not_contained_of_thrown rfl) (by simp)
      | some gatewayIP =>
          cases hip : s.mLocalIP with
          -- without a local address nothing is done
          | none => exact iff_of_true (contained_of_same rfl rfl) (by simp)
          | some ip =>
              have hlocal : IpAddress.ofCIDR ip true =
                  (CIDRIP.getIntOf ip.mIp).map fun n => ⟨n, ip.len, true, true⟩ := rfl
              simp only [Option.map_some, hlocal, Option.bind_some]
              cases hread : CIDRIP.getIntOf ip.mIp with
              | none =>
                  refine iff_of_false (not_contained_of_thrown rfl) (not_not.2 ?_)
                  exact .inr (.inr ⟨ip, rfl, .inl hread⟩)
              | some localNet =>
                  simp only [Option.map_some]
                  -- where the route goes does not matter here
                  generalize (_ || some gateway == s.mRemoteGW) = included
                  rcases addNetwork_cases s.mRoutes route included with
                    ⟨hnet, hadd⟩ | ⟨net, mRoutes, hnet, hadd, hknows⟩
                  · rw [hnet, hadd]
                    refine iff_of_false (not_contained_of_thrown rfl) (not_not.2 ?_)
                    exact .inr (.inr ⟨ip, rfl, .inr trivial⟩)
                  · rw [hnet, hadd]
                    simp only [reduceCtorEq, false_or, Option.mem_def, Option.some.injEq,
                      exists_eq_left', hread, not_and_not_right]
                    rw [← hknows]
                    constructor
                    · intro h hwf
                      exact (h.2 hwf).mRoutes
                    · intro h
                      refine ⟨rfl, fun hwf => ?_⟩
                      exact ⟨rfl, rfl, h hwf, rfl, hip.symm, rfl, rfl, rfl⟩

theorem addRoutev6_contained_iff (network : Text) (device : Option Text) :
    s.Contained wellFormed (s.addRoutev6 cfg network device) ↔
      ¬ s.Route6Fails cfg wellFormed network := by
  rw [addRoutev6, Route6Fails]
  cases split (· == '/') network with
  | nil => exact iff_of_false (not_contained_of_thrown rfl) (by simp)
  | cons ip len =>
      simp only [List.getElem?_cons_zero, Option.map_some, List.getElem?_cons_succ,
        List.head?_eq_getElem?]
      cases cfg.getAllByName ip with
      | unknownHost => exact iff_of_true (contained_of_same rfl rfl) (by simp)
      | inet4 => exact iff_of_false (not_contained_of_thrown rfl) (by simp)
      | inet6 address =>
          dsimp only
          cases len[0]?.bind parseInt with
          | none => exact iff_of_false (not_contained_of_thrown rfl) (by simp)
          | some mask =>
              have hknows : s.mRoutesv6.addIPv6 address mask (isAndroidTunDevice device) =
                  s.mRoutesv6 ↔ s.mRoutesv6.Knows (.ofInet6 address mask true) := by
                rw [NetworkSpace.addIPv6, NetworkSpace.add_eq_self_iff]
                exact knows_included _ mask _ true false
              rw [not_and_not_right, ← hknows]
              constructor
              · intro h hwf
                exact (h.2 hwf).mRoutesv6
              · intro h
                refine ⟨rfl, fun hwf => ?_⟩
                exact ⟨rfl, rfl, rfl, h hwf, rfl, rfl, rfl, rfl⟩

/-- The route to the network of the tun device: it cannot be read, or the routes are what they were
exactly if they contain it. -/
theorem addInterfaceRoute_cases (cfg : Setting) (s : TunState) (ip : CIDRIP) :
    (s.addInterfaceRoute cfg ip = { state := s } ∧ ¬ (ip.len ≤ 31 ∧ cfg.lollipop)) ∨
      (s.addInterfaceRoute cfg ip = { state := s, thrown := true } ∧
        (ip.len ≤ 31 ∧ cfg.lollipop) ∧ ip.network true = none) ∨
      ∃ net mRoutes, s.addInterfaceRoute cfg ip = { state := { s with mRoutes := mRoutes } } ∧
        (ip.len ≤ 31 ∧ cfg.lollipop) ∧ ip.network true = some net ∧
          (mRoutes = s.mRoutes ↔ s.mRoutes.Knows net) := by
  rw [addInterfaceRoute]
  split
  next hrouted =>
    rcases addNetwork_cases s.mRoutes ip true with ⟨hnet, hadd⟩ | ⟨net, mRoutes, hnet, hadd, hknows⟩
    · rw [hadd]
      exact .inr (.inl ⟨rfl, hrouted, hnet⟩)
    · rw [hadd]
      exact .inr (.inr ⟨net, mRoutes, rfl, hrouted, hnet, hknows⟩)
  next hrouted => exact .inl ⟨rfl, hrouted⟩

/-- `setLocalIP` in terms of the address that it stores in the end. -/
theorem setLocalIP_cases (cfg : Setting) (s : TunState) (ip netmask : Text) (mtu : Int)
    (mode : Text) :
    (localCIDR ip netmask mode = none ∧ (s.setLocalIP cfg ip netmask mtu mode).thrown = true) ∨
      ∃ cidr, localCIDR ip netmask mode = some cidr ∧
        s.setLocalIP cfg ip netmask mtu mode =
          let c := addInterfaceRoute cfg
            { s with mLocalIP := some cidr, mMtu := mtu, mRemoteGW := none } cidr
          if c.thrown then c else { state := { c.state with mRemoteGW := some netmask } } := by
  rw [setLocalIP, localCIDR]
  cases CIDRIP.ofMask ip netmask with
  | none => exact .inl ⟨rfl, rfl⟩
  | some cidr =>
      cases CIDRIP.getIntOf netmask with
      | none => exact .inl ⟨rfl, rfl⟩
      | some netMaskAsInt =>
          simp only [Option.bind_some]
          generalize (if cidr.len = 32 ∧ netmask ≠ "255.255.255.255".toList then
            looseLen cidr netMaskAsInt mode else some cidr.len) = len
          cases len with
          | none => exact .inl ⟨rfl, rfl⟩
          | some len => exact .inr ⟨_, rfl, rfl⟩

theorem setLocalIP_contained_iff (ip netmask : Text) (mtu : Int) (mode : Text) :
    s.Contained wellFormed (s.setLocalIP cfg ip netmask mtu mode) ↔
      ¬ s.IfconfigFails cfg wellFormed ip netmask mtu mode := by
  rw [IfconfigFails]
  rcases setLocalIP_cases cfg s ip netmask mtu mode with ⟨hcidr, hthrown⟩ | ⟨cidr, hcidr, hset⟩
  -- an address or a netmask that cannot be read throws
  · rw [hcidr]
    exact iff_of_false (not_contained_of_thrown hthrown) (by simp)
  · rw [hcidr, hset]
    dsimp only
    rcases addInterfaceRoute_cases cfg
      { s with mLocalIP := some cidr, mMtu := mtu, mRemoteGW := none } cidr with
      ⟨hroute, hrouted⟩ | ⟨hroute, hrouted, hnet⟩ | ⟨net, mRoutes, hroute, hrouted, hnet, hknows⟩
    -- no route is added, and the fields tell whether anything has changed
    · rw [hroute]
      simp only [hrouted, false_and, false_or, false_implies, and_true, Bool.false_eq_true,
        if_false, not_and_not_right]
      constructor
      · intro h hwf
        have hsame := h.2 hwf
        exact ⟨hsame.mLocalIP.symm, hsame.mMtu.symm, hsame.mRemoteGW.symm⟩
      · intro h
        refine ⟨rfl, fun hwf => ?_⟩
        obtain ⟨hip, hmtu, hgateway⟩ := h hwf
        exact ⟨rfl, rfl, rfl, rfl, hip.symm, rfl, hmtu.symm, hgateway.symm⟩
    -- the route for the interface throws, behind the fields that are set
    · rw [hroute]
      exact iff_of_false (not_contained_of_thrown rfl) (not_not.2 (.inl ⟨hrouted, hnet⟩))
    -- the route is added, so the routes have to know it already
    · rw [hroute]
      simp only [hrouted, hnet, reduceCtorEq, and_false, false_or, true_implies, Option.mem_def,
        Option.some.injEq, exists_eq_left', and_self, Bool.false_eq_true, if_false,
        not_and_not_right]
      constructor
      · intro h hwf
        have hsame := h.2 hwf
        refine ⟨hsame.mLocalIP.symm, hsame.mMtu.symm, hsame.mRemoteGW.symm, ?_⟩
        exact hknows.1 hsame.mRoutes
      · intro h
        refine ⟨rfl, fun hwf => ?_⟩
        obtain ⟨hip, hmtu, hgateway, hroutes⟩ := h hwf
        exact ⟨rfl, rfl, hknows.2 hroutes, rfl, hip.symm, rfl, hmtu.symm, hgateway.symm⟩

/-- **A failing push.** A message is contained exactly if it does not fail. -/
theorem push_contained_iff (p : Push) :
    s.Contained (p.WellFormed isAddress) (s.push cfg p) ↔ ¬ s.PushFails cfg isAddress p := by
  cases p with
  | dnsserver extra =>
      -- the list always grows
      have hgrows : s.mDnslist ++ [extra] ≠ s.mDnslist := by simp
      constructor
      · intro h hfails
        exact hgrows (h.2 hfails).mDnslist
      · intro h
        exact ⟨rfl, fun hwf => absurd hwf h⟩
  | dnsdomain extra =>
      constructor
      · rintro h ⟨rfl, hnone⟩
        have hdomain := (h.2 (by simp [Push.WellFormed])).mDomain
        simp [push, setDomain, hnone] at hdomain
      · intro h
        refine ⟨rfl, fun hwf => ?_⟩
        have hextra : extra = [] := not_not.1 hwf
        have hset : s.mDomain ≠ none := fun hnone => h ⟨hextra, hnone⟩
        simp only [push, setDomain, if_neg hset]
        exact SameConfig.refl s
  | route extra =>
      unfold push PushFails
      dsimp only
      generalize Push.WellFormed isAddress (.route extra) = wellFormed
      generalize split (· == ' ') extra = parts
      rcases parts with _ | ⟨dest, _ | ⟨mask, _ | ⟨gateway, rest⟩⟩⟩
      · exact iff_of_true (contained_of_same rfl rfl) not_false
      · exact iff_of_true (contained_of_same rfl rfl) not_false
      · exact iff_of_true (contained_of_same rfl rfl) not_false
      · dsimp only
        -- with or without a device
        split
        next heq =>
          obtain ⟨rfl, rfl, rfl, -⟩ : _ = dest ∧ _ = mask ∧ _ = gateway ∧ _ := by
            simpa using heq.symm
          exact addRoute_contained_iff _ _ _ _
        next heq =>
          obtain ⟨rfl, rfl, rfl, -⟩ : _ = dest ∧ _ = mask ∧ _ = gateway ∧ _ := by
            simpa using heq.symm
          exact addRoute_contained_iff _ _ _ _
        next hshort => exact absurd rfl (hshort dest mask gateway rest)
  | route6 extra =>
      unfold push PushFails
      dsimp only
      generalize Push.WellFormed isAddress (.route6 extra) = wellFormed
      generalize split (· == ' ') extra = parts
      rcases parts with _ | ⟨network, _ | ⟨device, rest⟩⟩
      · exact iff_of_false (not_contained_of_thrown rfl) (not_not.2 trivial)
      · exact iff_of_false (not_contained_of_thrown rfl) (not_not.2 trivial)
      · exact addRoutev6_contained_iff network (some device)
  | ifconfig extra =>
      unfold push PushFails
      dsimp only
      generalize Push.WellFormed isAddress (.ifconfig extra) = wellFormed
      generalize split (· == ' ') extra = parts
      rcases parts with _ | ⟨ip, _ | ⟨netmask, _ | ⟨mtu, _ | ⟨mode, rest⟩⟩⟩⟩
      · exact iff_of_false (not_contained_of_thrown rfl) (not_not.2 trivial)
      · exact iff_of_false (not_contained_of_thrown rfl) (not_not.2 trivial)
      · exact iff_of_false (not_contained_of_thrown rfl) (not_not.2 trivial)
      · dsimp only
        refine iff_of_false (not_contained_of_thrown ?_) (not_not.2 trivial)
        cases parseInt mtu <;> rfl
      · dsimp only
        cases parseInt mtu with
        | none => exact iff_of_false (not_contained_of_thrown rfl) (not_not.2 trivial)
        | some mtu => exact setLocalIP_contained_iff ip netmask mtu mode
  | ifconfig6 extra =>
      constructor
      · rintro h ⟨hwf, hdiffers⟩
        exact hdiffers (h.2 hwf).mLocalIPv6.symm
      · intro h
        refine ⟨rfl, fun hwf => ?_⟩
        have hsame : s.mLocalIPv6 = some extra := by
          by_contra hdiffers
          exact h ⟨hwf, hdiffers⟩
        exact ⟨rfl, rfl, rfl, rfl, rfl, hsame.symm, rfl, rfl⟩

end TunState

end PortVpn.Service
