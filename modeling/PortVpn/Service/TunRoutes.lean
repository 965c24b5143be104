import PortVpn.Net.RouteTermination
import PortVpn.Net.TreeSet
import PortVpn.Service.TunAttempts

/-!
# The networks that reach the routes

Four callers add networks to the routes of the tun device: `addRoute` and the route for the
interface's own network, which add a network without the bits outside its prefix; `addRoutev6`,
which adds what it is given; and `addLocalNetworksToRoutes`, which adds an excluded network, or the
two halves of an included one. A property that what they add has holds of all networks of every
state that a run of attempts reaches (`visits_routesHold`), and one that halving keeps holds of
the networks that `generateIPList` computes from them (`forall_generateIPList`).
-/

set_option autoImplicit false

namespace PortVpn.Net

/-! ## The loop -/

section Loop

variable {P : IpAddress → Prop} {nets : List IpAddress}

theorem forall_treeAdd {a : IpAddress} (ha : P a) (h : ∀ b ∈ nets, P b) :
    ∀ b ∈ treeAdd a nets, P b := by
  intro b hb
  rcases mem_treeAdd hb with rfl | hb
  · exact ha
  · exact h b hb

theorem forall_addNew {a : IpAddress} (ha : P a) (h : ∀ b ∈ nets, P b) :
    ∀ b ∈ addNew a nets, P b := by
  rw [addNew]
  split
  · exact h
  · exact List.forall_mem_cons.2 ⟨ha, h⟩

/-- The property holds of all networks of the loop. -/
structure Merge.Holds (P : IpAddress → Prop) (s : Merge) : Prop where
  networks : ∀ a ∈ s.networks, P a
  ipsDone : ∀ a ∈ s.ipsDone, P a
  currentNet : ∀ a ∈ s.currentNet, P a

variable (hfirst : ∀ a, P a → P a.firstHalf) (hsecond : ∀ a, P a → P a.secondHalf)
include hfirst hsecond

/-- **Step lemma.** A round polls, halves and queues networks. -/
theorem Merge.Holds.round {s : Merge} (h : s.Holds P) {currentNet : IpAddress}
    (hcurrent : P currentNet) (choice : Nat) : (s.round choice currentNet).Holds P := by
  rw [Merge.round]
  cases hpoll : poll choice s.networks with
  | none => exact ⟨h.networks, forall_treeAdd hcurrent h.ipsDone, by simp [Merge.finish]⟩
  | some polled =>
      obtain ⟨nextNet, rest⟩ := polled
      have hall : ∀ a ∈ nextNet :: rest, P a := fun a ha =>
        h.networks a ((perm_of_poll hpoll).mem_iff.2 ha)
      obtain ⟨hnext, hrest⟩ := List.forall_mem_cons.1 hall
      dsimp only
      split
      · exact ⟨hrest, forall_treeAdd hcurrent h.ipsDone, by simpa [Merge.finish] using hnext⟩
      · split
        · rw [Merge.mergeSameBase]
          split
          · exact ⟨hrest, h.ipsDone, by simpa using hnext⟩
          · refine ⟨?_, h.ipsDone, h.currentNet⟩
            have hnew := forall_addNew (hsecond _ hnext) hrest
            dsimp only
            split
            · exact hnew
            · exact forall_addNew (hfirst _ hnext) hnew
        · rw [Merge.mergeInside]
          split
          · exact ⟨hrest, h.ipsDone, h.currentNet⟩
          · refine ⟨?_, h.ipsDone, by simpa using hfirst _ hcurrent⟩
            dsimp only
            split
            · exact hall
            · exact List.forall_mem_cons.2 ⟨hnext,
                List.forall_mem_cons.2 ⟨hsecond _ hcurrent, hrest⟩⟩

/-- **What halving keeps, the loop keeps.** -/
theorem forall_generateIPList {choice : Nat} {choices : List Nat} {ips : List IpAddress}
    (h : ∀ a ∈ nets, P a) (hips : generateIPList choice choices nets = some ips) :
    ∀ a ∈ ips, P a := by
  have hrun : ∀ (choices : List Nat) (s : Merge), s.Holds P →
      Merge.loop choices s = some ips → ∀ a ∈ ips, P a := by
    intro choices
    induction choices with
    | nil =>
        intro s hs hloop
        rw [Merge.loop] at hloop
        split at hloop
        · rw [← Option.some.inj hloop]
          exact hs.ipsDone
        · simp at hloop
    | cons choice choices ih =>
        intro s hs hloop
        rw [Merge.loop] at hloop
        cases hcurrent : s.currentNet with
        | none =>
            rw [hcurrent] at hloop
            rw [← Option.some.inj hloop]
            exact hs.ipsDone
        | some currentNet =>
            rw [hcurrent] at hloop
            exact ih _ (hs.round hfirst hsecond (hs.currentNet _ hcurrent) choice) hloop
  apply hrun choices _ _ hips
  rw [Merge.start]
  cases hpoll : poll choice nets with
  | none => exact ⟨by simp, by simp, by simp⟩
  | some polled =>
      have hall : ∀ a ∈ polled.1 :: polled.2, P a := fun a ha =>
        h a ((perm_of_poll hpoll).mem_iff.2 ha)
      obtain ⟨hcurrent, hrest⟩ := List.forall_mem_cons.1 hall
      exact ⟨hrest, by simp, by simpa using hcurrent⟩

end Loop

end PortVpn.Net

namespace PortVpn.Service

open PortVpn.Lib PortVpn.Net

/-! ## What a message adds -/

/-- The network that `addRoutev6` adds, if it adds one. -/
def routev6Network (cfg : Setting) (network : Text) (device : Option Text) : Option IpAddress :=
  let v6parts := split (· == '/') network
  match v6parts[0]?.map cfg.getAllByName with
  | some (.inet6 ip) => (v6parts[1]?.bind parseInt).map fun mask =>
      IpAddress.ofInet6 ip mask (TunState.isAndroidTunDevice device)
  | _ => none

/-- The IPv6 network that a message adds. -/
def Push.network6 (cfg : Setting) : Push → Option IpAddress
  | .route6 extra =>
      match split (· == ' ') extra with
      | network :: device :: _ => routev6Network cfg network (some device)
      | _ => none
  | _ => none

/-- `P` holds of the IPv4 networks that are added, whatever the addresses: of normalised ones, of
halves, and of excluded ones. -/
structure HoldsOfAdded (P : IpAddress → Prop) : Prop where
  normalised : ∀ (c : CIDRIP) (r : Bool × CIDRIP) (included : Bool) (a : IpAddress), 0 ≤ c.len →
    c.len ≤ 32 → c.normalise .us = some r → IpAddress.ofCIDR r.2 included = some a → P a
  halves : ∀ (c : CIDRIP) (a : IpAddress), IpAddress.ofCIDR c true = some a →
    P a.firstHalf ∧ P a.secondHalf
  excluded : ∀ (c : CIDRIP) (a : IpAddress), IpAddress.ofCIDR c false = some a → P a

namespace TunState

variable {cfg : Setting} {env : OpenEnv} {s : TunState} {P P6 : IpAddress → Prop}

/-- All IPv4 networks of the state satisfy `P`, and all IPv6 networks `P6`. -/
structure RoutesHold (P P6 : IpAddress → Prop) (s : TunState) : Prop where
  routes : ∀ a ∈ s.mRoutes.mIpAddresses, P a
  routesv6 : ∀ a ∈ s.mRoutesv6.mIpAddresses, P6 a

theorem RoutesHold.of_clear (h : s.Clear) : RoutesHold P P6 s := by
  constructor
  · simp [h.mRoutes]
  · simp [h.mRoutesv6]

theorem routesHold_addIP (hP : HoldsOfAdded P) {c : CIDRIP} (hlow : 0 ≤ c.len) (hlen : c.len ≤ 32)
    {included : Bool} {mRoutes mRoutes' : NetworkSpace} (h : ∀ a ∈ mRoutes.mIpAddresses, P a)
    (hadd : ((c.normalise .us).bind fun r => mRoutes.addIP r.2 included) = some mRoutes') :
    ∀ a ∈ mRoutes'.mIpAddresses, P a := by
  obtain ⟨r, hr, hadd⟩ := Option.bind_eq_some_iff.1 hadd
  obtain ⟨a, ha, rfl⟩ := Option.map_eq_some_iff.1 hadd
  exact forall_treeAdd (hP.normalised c r included a hlow hlen hr ha) h

theorem RoutesHold.addRoute (hP : HoldsOfAdded P) (h : RoutesHold P P6 s)
    (dest mask gateway : Text) (device : Option Text) :
    RoutesHold P P6 (s.addRoute dest mask gateway device).state := by
  rw [TunState.addRoute]
  dsimp only
  split
  next route gatewayIP hroute hgateway =>
    obtain ⟨-, n, hn, hlen⟩ := CIDRIP.ofMask_len hroute
    split
    · exact h
    · split
      · exact h
      · split
        · exact h
        next hadd =>
          exact ⟨routesHold_addIP hP (by omega) (by omega) h.routes hadd, h.routesv6⟩
  next => exact h

theorem RoutesHold.addRoutev6 (h : RoutesHold P P6 s) (network : Text) (device : Option Text)
    (hadd : ∀ a ∈ routev6Network cfg network device, P6 a) :
    RoutesHold P P6 (s.addRoutev6 cfg network device).state := by
  rw [routev6Network] at hadd
  unfold TunState.addRoutev6
  dsimp only at hadd ⊢
  split
  · exact h
  next ip hname =>
    rw [hname] at hadd
    split
    · exact h
    next mask hmask =>
      rw [hmask] at hadd
      exact ⟨h.routes, forall_treeAdd (hadd _ rfl) h.routesv6⟩
  · exact h
  · exact h

theorem RoutesHold.addInterfaceRoute (hP : HoldsOfAdded P) (h : RoutesHold P P6 s) {ip : CIDRIP}
    (hlow : 0 ≤ ip.len) : RoutesHold P P6 (s.addInterfaceRoute cfg ip).state := by
  rw [TunState.addInterfaceRoute]
  split
  next hlen =>
    split
    · exact h
    next hadd => exact ⟨routesHold_addIP hP hlow (by omega) h.routes hadd, h.routesv6⟩
  next => exact h

/-- The length that `setLocalIP` ends with is one of an address. -/
theorem looseLen_nonneg {ip : CIDRIP} {netMaskAsInt len : Int} {mode : Text}
    (h : looseLen ip netMaskAsInt mode = some len) : 0 ≤ len := by
  obtain ⟨n, -, rfl⟩ := Option.map_eq_some_iff.1 h
  split
  · split
    · decide
    · decide
  · split
    · decide
    · decide

theorem RoutesHold.setLocalIP (hP : HoldsOfAdded P) (h : RoutesHold P P6 s) (ip netmask : Text)
    (mtu : Int) (mode : Text) : RoutesHold P P6 (s.setLocalIP cfg ip netmask mtu mode).state := by
  rw [TunState.setLocalIP]
  split
  next cidr netMaskAsInt hcidr hmask =>
    obtain ⟨-, n, -, hn⟩ := CIDRIP.ofMask_len hcidr
    have hset : ∀ t : TunState, t.mRoutes = s.mRoutes → t.mRoutesv6 = s.mRoutesv6 →
        RoutesHold P P6 t := by
      intro t h4 h6
      exact ⟨by rw [h4]; exact h.routes, by rw [h6]; exact h.routesv6⟩
    dsimp only
    split
    · exact hset _ rfl rfl
    next len hlen =>
      have hlow : 0 ≤ len := by
        split at hlen
        · exact looseLen_nonneg hlen
        · obtain rfl := Option.some.inj hlen
          omega
      have hroute : ∀ t, RoutesHold P P6 t →
          RoutesHold P P6 (t.addInterfaceRoute cfg { cidr with len := len }).state :=
        fun t ht => ht.addInterfaceRoute hP hlow
      split
      · exact hroute _ (hset _ rfl rfl)
      · refine ⟨(hroute _ ?_).routes, (hroute _ ?_).routesv6⟩
        · exact hset _ rfl rfl
        · exact hset _ rfl rfl
  next => exact h

/-- **Step lemma.** A message keeps what holds of the networks, if it holds of the IPv6 network
that it adds. -/
theorem RoutesHold.push (hP : HoldsOfAdded P) (h : RoutesHold P P6 s) (p : Push)
    (hp : ∀ a ∈ p.network6 cfg, P6 a) : RoutesHold P P6 (s.push cfg p).state := by
  cases p with
  | dnsserver extra => exact ⟨h.routes, h.routesv6⟩
  | dnsdomain extra =>
      simp only [TunState.push, setDomain]
      split
      · exact ⟨h.routes, h.routesv6⟩
      · exact h
  | route extra =>
      simp only [TunState.push]
      split
      · exact h.addRoute hP _ _ _ _
      · exact h.addRoute hP _ _ _ _
      · exact h
  | route6 extra =>
      simp only [Push.network6] at hp
      simp only [TunState.push]
      split
      next network device _ hsplit =>
        rw [hsplit] at hp
        exact h.addRoutev6 network (some device) hp
      · exact h
  | ifconfig extra =>
      simp only [TunState.push]
      split
      · split
        · exact h.setLocalIP hP _ _ _ _
        · exact h
      · exact h
  | ifconfig6 extra => exact ⟨h.routes, h.routesv6⟩

/-! ## What `openTun` adds -/

theorem routesHold_addLocalNetwork (hP : HoldsOfAdded P) {mRoutes mRoutes' : NetworkSpace}
    {ip netMask : Text} (h : ∀ a ∈ mRoutes.mIpAddresses, P a)
    (hadd : addLocalNetwork cfg mRoutes ip netMask = some mRoutes') :
    ∀ a ∈ mRoutes'.mIpAddresses, P a := by
  rw [addLocalNetwork] at hadd
  split at hadd
  · obtain ⟨c, -, hsplit⟩ := Option.bind_eq_some_iff.1 hadd
    obtain ⟨newIP, hnew, rfl⟩ := Option.map_eq_some_iff.1 hsplit
    obtain ⟨hfirst, hsecond⟩ := hP.halves c newIP hnew
    exact forall_treeAdd hsecond (forall_treeAdd hfirst h)
  · split at hadd
    · obtain ⟨c, -, hnet⟩ := Option.bind_eq_some_iff.1 hadd
      obtain ⟨newIP, hnew, rfl⟩ := Option.map_eq_some_iff.1 hnet
      exact forall_treeAdd (hP.excluded c newIP hnew) h
    · rw [← Option.some.inj hadd]
      exact h

theorem routesHold_addLocalNetworks (hP : HoldsOfAdded P) {ip : CIDRIP}
    {localRoutes : List (Option Text)} {mRoutes : NetworkSpace}
    (h : ∀ a ∈ mRoutes.mIpAddresses, P a) :
    ∀ a ∈ (addLocalNetworksToRoutes cfg ip localRoutes mRoutes).1.mIpAddresses, P a := by
  induction localRoutes, mRoutes using addLocalNetworksToRoutes.induct cfg ip with
  | case1 mRoutes => exact h
  | case2 intf localRoutes mRoutes netMask hintf ih =>
      simp only [addLocalNetworksToRoutes, hintf, if_true]
      exact ih h
  | case3 intf localRoutes mRoutes ipAddr netMask hintf hip hadd =>
      simp only [addLocalNetworksToRoutes, hintf, if_neg hip, hadd]
      exact h
  | case4 intf localRoutes mRoutes ipAddr netMask hintf hip mRoutes' hadd ih =>
      simp only [addLocalNetworksToRoutes, hintf, if_neg hip, hadd]
      exact ih (routesHold_addLocalNetwork hP h hadd)
  | case5 intf ipAddr netMask localRoutes mRoutes hskip ih =>
      rw [addLocalNetworksToRoutes]
      · exact ih h
      · exact hskip
  | case6 localRoutes mRoutes hnil hthree =>
      rw [addLocalNetworksToRoutes]
      · exact h
      · exact hnil
      · exact hthree

theorem RoutesHold.withLocal (hP : HoldsOfAdded P) (h : RoutesHold P P6 s) :
    RoutesHold P P6 { s with mRoutes := s.routesWithLocal cfg env } := by
  refine ⟨?_, h.routesv6⟩
  dsimp only [routesWithLocal]
  split
  · exact h.routes
  · exact routesHold_addLocalNetworks hP h.routes

theorem openIPv6_error_state {b : Builder} {o : Opened} (h : s.openIPv6 env b = .error o) :
    o.state = s := by
  rw [openIPv6] at h
  repeat' split at h
  all_goals first
    | (obtain rfl := Except.error.inj h
       rfl)
    | simp at h

theorem finishTun_routes (cfg : Setting) (env : OpenEnv) (s : TunState) (b : Builder) :
    ((finishTun cfg env s b).state.mRoutes = s.mRoutes ∧
        (finishTun cfg env s b).state.mRoutesv6 = s.mRoutesv6) ∨
      (finishTun cfg env s b).state.Clear := by
  rw [finishTun]
  dsimp only
  split
  · exact Or.inl ⟨rfl, rfl⟩
  · generalize (if cfg.lollipop then setAllowedVpnPackages env.notInstalled s.mAllowedAppsVpn
      else (s.mAllowedAppsVpn, false)) = r
    cases r.2 with
    | true => exact Or.inl ⟨rfl, rfl⟩
    | false => exact Or.inr (reset_clear _)

/-- After `openTun` the networks are those of before, with the local networks, or none. -/
theorem openTun_routes {o : Opened} (h : s.openTun cfg env = some o) :
    (o.state.mRoutesv6 = s.mRoutesv6 ∧ (o.state.mRoutes = s.mRoutes ∨
        o.state.mRoutes = s.routesWithLocal cfg env)) ∨ o.state.Clear := by
  rw [openTun] at h
  split at h
  -- without an address nothing is touched
  · obtain rfl := Option.some.inj h
    exact Or.inl ⟨rfl, Or.inl rfl⟩
  · cases h4 : s.openIPv4 cfg env with
    | error o' =>
        rw [h4] at h
        obtain rfl := Option.some.inj h
        rw [openIPv4] at h4
        -- an error of the IPv4 part comes after the local networks were added
        cases hip : s.mLocalIP with
        | none => simp [hip] at h4
        | some ip =>
            have hlocal : s.routesWithLocal cfg env =
                (addLocalNetworksToRoutes cfg ip env.getIfconfig s.mRoutes).1 := by
              rw [routesWithLocal, hip]
            rw [hip] at h4
            dsimp only at h4
            split at h4
            · obtain rfl := Except.error.inj h4
              exact Or.inl ⟨rfl, Or.inr hlocal.symm⟩
            · split at h4
              · obtain rfl := Except.error.inj h4
                exact Or.inl ⟨rfl, Or.inr hlocal.symm⟩
              · simp at h4
    | ok r =>
        obtain ⟨t, b⟩ := r
        rw [h4] at h
        obtain ⟨rfl, -⟩ := openIPv4_ok h4
        dsimp only at h
        cases h6 : openIPv6 env { s with mRoutes := s.routesWithLocal cfg env } b with
        | error o' =>
            rw [h6] at h
            obtain rfl := Option.some.inj h
            -- the IPv6 part adds addresses only
            rw [openIPv6_error_state h6]
            exact Or.inl ⟨rfl, Or.inr rfl⟩
        | ok b' =>
            rw [h6] at h
            dsimp only at h
            split at h
            · obtain rfl := Option.some.inj h
              exact Or.inl ⟨rfl, Or.inr rfl⟩
            · split at h
              · obtain rfl := Option.some.inj h
                rcases finishTun_routes cfg env { s with mRoutes := s.routesWithLocal cfg env } _
                  with ⟨hroutes, hroutes6⟩ | hclear
                · exact Or.inl ⟨hroutes6, Or.inr hroutes⟩
                · exact Or.inr hclear
              · simp at h

/-! ## Runs of attempts -/

theorem RoutesHold.openTun (hP : HoldsOfAdded P) (h : RoutesHold P P6 s) {o : Opened}
    (ho : s.openTun cfg env = some o) : RoutesHold P P6 o.state := by
  rcases openTun_routes ho with ⟨h6, h4⟩ | hclear
  · have hlocal : RoutesHold P P6 { s with mRoutes := s.routesWithLocal cfg env } := h.withLocal hP
    constructor
    · rcases h4 with h4 | h4
      · rw [h4]
        exact h.routes
      · rw [h4]
        exact hlocal.routes
    · rw [h6]
      exact h.routesv6
  · exact RoutesHold.of_clear hclear

end TunState

/-- **Run lemma.** In a run of attempts whose messages add only IPv6 networks with the property, all
networks of every state have it. -/
theorem visits_routesHold {cfg : Setting} {P P6 : IpAddress → Prop} (hP : HoldsOfAdded P)
    {s : { s : TunState // s.Clear }} {ls : List TunEvent} {a : Attempts}
    (hls : ∀ x ∈ Machine.history (Attempts.step cfg) (Attempts.init s) ls, ∀ p, x.label = .push p →
      ∀ net ∈ p.network6 cfg, P6 net)
    (ha : Machine.Visits (Attempts.step cfg) (Attempts.init s) ls a) :
    TunState.RoutesHold P P6 a.tun := by
  refine Machine.visits_inv (I := fun a : Attempts => TunState.RoutesHold P P6 a.tun)
    (C := fun x => ∀ p, x.label = .push p → ∀ net ∈ p.network6 cfg, P6 net) ?_
    (TunState.RoutesHold.of_clear s.2) hls ha
  intro x hx hinv hlabel
  obtain ⟨pre, e, post, out⟩ := x
  dsimp only at hinv hlabel ⊢
  change Attempts.step cfg pre e = some (post, out) at hx
  obtain ⟨-, hstep⟩ := Attempts.step_cases hx
  cases e with
  | push p =>
      change post = _ at hstep
      subst hstep
      exact hinv.push hP p (hlabel p rfl)
  | persistTunAction =>
      change post = _ at hstep
      subst hstep
      split
      · exact hinv
      · exact hinv
  | openTun extra env =>
      rcases hstep with ⟨-, rfl, -⟩ | ⟨-, o, ho, rfl, -⟩
      · exact hinv
      · exact hinv.openTun hP ho

end PortVpn.Service
