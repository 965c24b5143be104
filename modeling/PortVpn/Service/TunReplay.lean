import PortVpn.Net.TreeSet
import PortVpn.Service.TunAttempts
import PortVpn.Service.TunConfigString

/-!
# The same pushes once more

`openTun` keeps the text of the configuration that it has opened, and `getTunReopenStatus` compares it
with the text of what has been pushed since. In between, `addLocalNetworksToRoutes` has added the
networks of the local interfaces to the routes. `replay_noaction_iff` says when the same pushes are
answered `NOACTION` all the same.
-/

set_option autoImplicit false

namespace PortVpn.Service

open PortVpn.Lib PortVpn.Net

/-- The service after messages. -/
def pushed (cfg : Setting) (s : TunState) (pushes : List Push) : TunState :=
  pushes.foldl (fun s p => (s.push cfg p).state) s

namespace TunState

/-- The networks that `addLocalNetworksToRoutes` adds for one interface. -/
def networksOf (cfg : Setting) (ip netMask : Text) : List IpAddress :=
  if !cfg.kitkat && !cfg.mAllowLocalLAN then
    match (CIDRIP.ofMask ip netMask).bind fun c => IpAddress.ofCIDR c true with
    | none => []
    | some newIP => [newIP.firstHalf, newIP.secondHalf]
  else if cfg.kitkat && cfg.mAllowLocalLAN then
    ((CIDRIP.ofMask ip netMask).bind fun c => IpAddress.ofCIDR c false).toList
  else []

/-- The networks that `addLocalNetworksToRoutes` adds, over the interfaces in groups of three. -/
def localNetworks (cfg : Setting) (mLocalIP : CIDRIP) : List (Option Text) → List IpAddress
  | intf :: ipAddr :: netMask :: localRoutes =>
      (match ignoredInterface intf, ipAddr, netMask with
        | false, some ipAddr, some netMask =>
            if ipAddr = mLocalIP.mIp then [] else networksOf cfg ipAddr netMask
        | _, _, _ => []) ++ localNetworks cfg mLocalIP localRoutes
  | _ => []

end TunState

/-- The space has a network that is equal for its tree set. -/
def Known (s : NetworkSpace) (a : IpAddress) : Prop :=
  ∃ b ∈ s.mIpAddresses, a.compareTo b = .eq

theorem known_iff {s : NetworkSpace} {a : IpAddress} :
    Known s a ↔ ∃ b ∈ s.mIpAddresses, a.key = b.key := by
  rw [Known]
  simp only [IpAddress.compareTo_eq_compare, compare_eq_iff_eq]

theorem eq_of_mIpAddresses {r r' : NetworkSpace} (h : r.mIpAddresses = r'.mIpAddresses) :
    r = r' := by
  cases r
  cases r'
  exact congrArg NetworkSpace.mk h

/-! ## Adding networks to a tree set -/

section

variable {s : List IpAddress} {nets : List IpAddress}

theorem length_le_treeAdd (a : IpAddress) (s : List IpAddress) :
    s.length ≤ (treeAdd a s).length := by
  induction s with
  | nil => exact Nat.zero_le _
  | cons b s ih =>
      rw [treeAdd_cons]
      split
      · exact Nat.le_succ _
      · split
        · exact le_rfl
        · exact Nat.succ_le_succ ih

theorem length_le_foldl_treeAdd (nets s : List IpAddress) :
    s.length ≤ (nets.foldl (fun s a => treeAdd a s) s).length := by
  induction nets generalizing s with
  | nil => exact le_rfl
  | cons a nets ih => exact (length_le_treeAdd a s).trans (ih _)

/-- Adding networks that are all known changes nothing. -/
theorem foldl_treeAdd_of_known (hs : Sorted s) (h : ∀ a ∈ nets, ∃ b ∈ s, a.key = b.key) :
    nets.foldl (fun s a => treeAdd a s) s = s := by
  induction nets with
  | nil => rfl
  | cons a nets ih =>
      obtain ⟨b, hb, hkey⟩ := h a List.mem_cons_self
      rw [List.foldl_cons, treeAdd_of_known hs hb hkey]
      exact ih fun a' ha' => h a' (List.mem_cons_of_mem a ha')

/-- A set that has not grown has known all networks. -/
theorem known_of_length (hs : Sorted s)
    (h : (nets.foldl (fun s a => treeAdd a s) s).length = s.length) :
    ∀ a ∈ nets, ∃ b ∈ s, a.key = b.key := by
  induction nets with
  | nil => simp
  | cons a nets ih =>
      rw [List.foldl_cons] at h
      by_cases hknown : ∃ b ∈ s, a.key = b.key
      · obtain ⟨b, hb, hkey⟩ := hknown
        rw [treeAdd_of_known hs hb hkey] at h
        exact List.forall_mem_cons.2 ⟨⟨b, hb, hkey⟩, ih h⟩
      · have hgrown := length_treeAdd fun b hb hkey => hknown ⟨b, hb, hkey⟩
        have := length_le_foldl_treeAdd nets (treeAdd a s)
        omega

end

namespace TunState

variable {cfg : Setting} {env : OpenEnv} {s t : TunState}

/-! ## Local networks -/

theorem addLocalNetwork_eq {mRoutes mRoutes' : NetworkSpace} {ip netMask : Text}
    (h : addLocalNetwork cfg mRoutes ip netMask = some mRoutes') :
    mRoutes'.mIpAddresses =
      (networksOf cfg ip netMask).foldl (fun s a => treeAdd a s) mRoutes.mIpAddresses := by
  rw [addLocalNetwork] at h
  rw [networksOf]
  split at h
  · rename_i hc
    rw [if_pos hc]
    obtain ⟨c, hcidr, hsplit⟩ := Option.bind_eq_some_iff.1 h
    obtain ⟨newIP, hnew, rfl⟩ := Option.map_eq_some_iff.1 hsplit
    rw [hcidr, Option.bind_some, hnew]
    rfl
  · rename_i hc
    rw [if_neg hc]
    split at h
    · rename_i hk
      rw [if_pos hk]
      obtain ⟨c, hcidr, hadd⟩ := Option.bind_eq_some_iff.1 h
      obtain ⟨newIP, hnew, rfl⟩ := Option.map_eq_some_iff.1 hadd
      rw [hcidr, Option.bind_some, hnew]
      rfl
    · rename_i hk
      rw [if_neg hk]
      obtain rfl := Option.some.inj h
      rfl

theorem addLocalNetworksToRoutes_eq {ip : CIDRIP} {localRoutes : List (Option Text)}
    {mRoutes : NetworkSpace}
    (h : (addLocalNetworksToRoutes cfg ip localRoutes mRoutes).2 = false) :
    (addLocalNetworksToRoutes cfg ip localRoutes mRoutes).1.mIpAddresses =
      (localNetworks cfg ip localRoutes).foldl (fun s a => treeAdd a s) mRoutes.mIpAddresses := by
  induction localRoutes, mRoutes using addLocalNetworksToRoutes.induct cfg ip with
  | case1 mRoutes => rfl
  | case2 intf localRoutes mRoutes netMask hintf ih =>
      simp only [addLocalNetworksToRoutes, hintf, if_true] at h ⊢
      rw [ih h, localNetworks]
      · simp only [if_true, List.nil_append]
      · exact hintf
  | case3 intf localRoutes mRoutes ipAddr netMask hintf hip hadd =>
      simp [addLocalNetworksToRoutes, hintf, hip, hadd] at h
  | case4 intf localRoutes mRoutes ipAddr netMask hintf hip mRoutes' hadd ih =>
      simp only [addLocalNetworksToRoutes, hintf, if_neg hip, hadd] at h ⊢
      rw [ih h, localNetworks, addLocalNetwork_eq hadd]
      · simp only [if_neg hip, List.foldl_append]
      · exact hintf
  | case5 intf ipAddr netMask localRoutes mRoutes hskip ih =>
      have hroutes : addLocalNetworksToRoutes cfg ip (intf :: ipAddr :: netMask :: localRoutes)
          mRoutes = addLocalNetworksToRoutes cfg ip localRoutes mRoutes := by
        rw [addLocalNetworksToRoutes]
        exact hskip
      have hnets : localNetworks cfg ip (intf :: ipAddr :: netMask :: localRoutes) =
          localNetworks cfg ip localRoutes := by
        rw [localNetworks]
        · rfl
        · exact hskip
      rw [hroutes] at h ⊢
      rw [ih h, hnets]
  | case6 localRoutes mRoutes hnil hthree =>
      rw [addLocalNetworksToRoutes] at h
      · simp at h
      · exact hnil
      · exact hthree

/-! ## What the messages leave alone -/

/-- A call keeps the text of the open device, and the networks stay sorted. -/
def KeepsDevice (s : TunState) (c : Called) : Prop :=
  c.state.mLastTunCfg = s.mLastTunCfg ∧
    (Sorted s.mRoutes.mIpAddresses → Sorted c.state.mRoutes.mIpAddresses)

theorem sorted_addIP {mRoutes mRoutes' : NetworkSpace} {route : Option (Bool × CIDRIP)}
    {included : Bool} (h : (route.bind fun r => mRoutes.addIP r.2 included) = some mRoutes')
    (hs : Sorted mRoutes.mIpAddresses) : Sorted mRoutes'.mIpAddresses := by
  obtain ⟨r, -, hadd⟩ := Option.bind_eq_some_iff.1 h
  obtain ⟨a, -, rfl⟩ := Option.map_eq_some_iff.1 hadd
  exact sorted_treeAdd hs

theorem addRoute_keepsDevice (dest mask gateway : Text) (device : Option Text) :
    KeepsDevice s (s.addRoute dest mask gateway device) := by
  rw [addRoute]
  dsimp only
  split
  · split
    · exact ⟨rfl, id⟩
    · split
      · exact ⟨rfl, id⟩
      · split
        · exact ⟨rfl, id⟩
        next hadd => exact ⟨rfl, sorted_addIP hadd⟩
  · exact ⟨rfl, id⟩

theorem addRoutev6_keepsDevice (network : Text) (device : Option Text) :
    KeepsDevice s (s.addRoutev6 cfg network device) := by
  unfold addRoutev6
  dsimp only
  repeat' split
  all_goals exact ⟨rfl, id⟩

theorem addInterfaceRoute_keepsDevice (ip : CIDRIP) :
    KeepsDevice s (s.addInterfaceRoute cfg ip) := by
  rw [addInterfaceRoute]
  split
  · split
    · exact ⟨rfl, id⟩
    next hadd => exact ⟨rfl, sorted_addIP hadd⟩
  · exact ⟨rfl, id⟩

theorem setLocalIP_keepsDevice (ip netmask : Text) (mtu : Int) (mode : Text) :
    KeepsDevice s (s.setLocalIP cfg ip netmask mtu mode) := by
  have hkeep : ∀ t ip, KeepsDevice t (t.addInterfaceRoute cfg ip) := fun t ip =>
    addInterfaceRoute_keepsDevice ip
  rw [setLocalIP]
  split
  · dsimp only
    split
    · exact ⟨rfl, id⟩
    · split
      · exact ⟨(hkeep _ _).1, fun hs => (hkeep _ _).2 hs⟩
      · exact ⟨(hkeep _ _).1, fun hs => (hkeep _ _).2 hs⟩
  · exact ⟨rfl, id⟩

theorem push_keepsDevice (s : TunState) (p : Push) : KeepsDevice s (s.push cfg p) := by
  cases p with
  | dnsserver extra => exact ⟨rfl, id⟩
  | dnsdomain extra =>
      simp only [push, setDomain]
      split
      · exact ⟨rfl, id⟩
      · exact ⟨rfl, id⟩
  | route extra =>
      simp only [push]
      split
      · exact addRoute_keepsDevice _ _ _ _
      · exact addRoute_keepsDevice _ _ _ _
      · exact ⟨rfl, id⟩
  | route6 extra =>
      simp only [push]
      split
      · exact addRoutev6_keepsDevice _ _
      · exact ⟨rfl, id⟩
  | ifconfig extra =>
      simp only [push]
      split
      · split
        · exact setLocalIP_keepsDevice _ _ _ _
        · exact ⟨rfl, id⟩
      · exact ⟨rfl, id⟩
  | ifconfig6 extra => exact ⟨rfl, id⟩

/-- Two services with the same pushed configuration whose addresses have the same MTU. -/
def AgreesMtu (s t : TunState) : Prop := s.Agrees t ∧ (s.mLocalIP ≠ none → s.mMtu = t.mMtu)

/-- A call that is no `setLocalIP` leaves the address and the MTU alone. -/
def KeepsAddress (s : TunState) (c : Called) : Prop :=
  c.state.mLocalIP = s.mLocalIP ∧ c.state.mMtu = s.mMtu

theorem addRoute_keepsAddress (dest mask gateway : Text) (device : Option Text) :
    KeepsAddress s (s.addRoute dest mask gateway device) := by
  rw [addRoute]
  dsimp only
  repeat' split
  all_goals exact ⟨rfl, rfl⟩

theorem addRoutev6_keepsAddress (network : Text) (device : Option Text) :
    KeepsAddress s (s.addRoutev6 cfg network device) := by
  unfold addRoutev6
  dsimp only
  repeat' split
  all_goals exact ⟨rfl, rfl⟩

/-- `setLocalIP` sets the MTU of every service, or leaves every service as it is. -/
theorem setLocalIP_mtu (cfg : Setting) (ip netmask : Text) (mtu : Int) (mode : Text) :
    (∀ s : TunState, (s.setLocalIP cfg ip netmask mtu mode).state.mMtu = mtu) ∨
      ∀ s : TunState, s.setLocalIP cfg ip netmask mtu mode = { state := s, thrown := true } := by
  cases hcidr : CIDRIP.ofMask ip netmask with
  | none => exact .inr fun s => by simp only [setLocalIP, hcidr]
  | some cidr =>
      cases hmask : CIDRIP.getIntOf netmask with
      | none => exact .inr fun s => by simp only [setLocalIP, hcidr, hmask]
      | some netMaskAsInt =>
          refine .inl fun s => ?_
          simp only [setLocalIP, addInterfaceRoute, hcidr, hmask]
          repeat' split
          all_goals rfl

/-- What every message preserves between two services. -/
theorem push_agreesMtu (h : AgreesMtu s t) (p : Push) :
    AgreesMtu (s.push cfg p).state (t.push cfg p).state := by
  refine ⟨(push_agrees h.1 p).2, ?_⟩
  have hkeep : ∀ c d, KeepsAddress s c → KeepsAddress t d →
      c.state.mLocalIP ≠ none → c.state.mMtu = d.state.mMtu := fun c d hc hd hip => by
    rw [hc.2, hd.2]
    exact h.2 (hc.1 ▸ hip)
  cases p with
  | dnsserver extra => exact hkeep _ _ ⟨rfl, rfl⟩ ⟨rfl, rfl⟩
  | dnsdomain extra =>
      simp only [push, setDomain, h.1.mDomain]
      split
      · exact h.2
      · exact h.2
  | route extra =>
      simp only [push]
      split
      · exact hkeep _ _ (addRoute_keepsAddress _ _ _ _) (addRoute_keepsAddress _ _ _ _)
      · exact hkeep _ _ (addRoute_keepsAddress _ _ _ _) (addRoute_keepsAddress _ _ _ _)
      · exact h.2
  | route6 extra =>
      simp only [push]
      split
      · exact hkeep _ _ (addRoutev6_keepsAddress _ _) (addRoutev6_keepsAddress _ _)
      · exact h.2
  | ifconfig extra =>
      simp only [push]
      split
      · split
        · rcases setLocalIP_mtu cfg _ _ _ _ with hset | hkept
          · exact fun _ => (hset s).trans (hset t).symm
          · rw [hkept, hkept]
            exact h.2
        · exact h.2
      · exact h.2
  | ifconfig6 extra => exact h.2

/-- What a run of messages preserves between two services. -/
theorem pushed_agreesMtu (cfg : Setting) (h : AgreesMtu s t) (pushes : List Push) :
    AgreesMtu (pushed cfg s pushes) (pushed cfg t pushes) := by
  induction pushes generalizing s t with
  | nil => exact h
  | cons p pushes ih => exact ih (push_agreesMtu h p)

/-- What a run of messages leaves alone. -/
theorem pushed_keepsDevice (cfg : Setting) (s : TunState) (pushes : List Push) :
    KeepsDevice s { state := pushed cfg s pushes } := by
  induction pushes generalizing s with
  | nil => exact ⟨rfl, id⟩
  | cons p pushes ih =>
      obtain ⟨hlast, hsorted⟩ : KeepsDevice s (s.push cfg p) := push_keepsDevice s p
      exact ⟨(ih _).1.trans hlast, fun hs => (ih _).2 (hsorted hs)⟩

/-- A local address and the same pushed configuration give the same text. -/
theorem getTunConfigString_agrees (h : AgreesMtu s t) (hip : s.mLocalIP ≠ none) :
    s.getTunConfigString = t.getTunConfigString := by
  unfold getTunConfigString
  rw [h.1.mLocalIP, h.1.mLocalIPv6, h.1.mRoutes, h.1.mRoutesv6, h.1.mDnslist, h.1.mDomain, h.2 hip]

/-! ## What is left of the configuration -/

theorem finishTun_established {b : Builder}
    (hres : (finishTun cfg env s b).result = .established) :
    s.mLocalIP ≠ none ∧ (finishTun cfg env s b).state.Clear ∧
      (finishTun cfg env s b).state.mLastTunCfg = some s.getTunConfigString := by
  rw [finishTun] at hres ⊢
  by_cases hip : s.mLocalIP = none
  · simp [hip] at hres
  · rw [if_neg hip] at hres ⊢
    generalize (if cfg.lollipop then setAllowedVpnPackages env.notInstalled s.mAllowedAppsVpn
      else (s.mAllowedAppsVpn, false)) = r at hres ⊢
    obtain ⟨apps, thrown⟩ := r
    cases thrown with
    | true => simp at hres
    | false => exact ⟨hip, reset_clear _, rfl⟩

/-- The routes that `openTun` works with. -/
theorem openIPv4_routes {b : Builder} (h : s.openIPv4 cfg env = .ok (t, b)) {ip : CIDRIP}
    (hip : s.mLocalIP = some ip) :
    (addLocalNetworksToRoutes cfg ip env.getIfconfig s.mRoutes).2 = false ∧
      t = { s with mRoutes := (addLocalNetworksToRoutes cfg ip env.getIfconfig s.mRoutes).1 } := by
  rw [openIPv4] at h
  rw [hip] at h
  dsimp only at h
  split at h
  · simp at h
  next hthrown =>
    split at h
    · simp at h
    · refine ⟨by simpa using hthrown, ?_⟩
      rw [hip]
      exact (Prod.ext_iff.1 (Except.ok.inj h)).1.symm

/-- An established device leaves a clear state, and the text of the configuration with the local
networks. -/
theorem openTun_established {o : Opened} (h : s.openTun cfg env = some o)
    (hres : o.result = .established) :
    ∃ ip, s.mLocalIP = some ip ∧
      (addLocalNetworksToRoutes cfg ip env.getIfconfig s.mRoutes).2 = false ∧ o.state.Clear ∧
        o.state.mLastTunCfg = some { s with
          mRoutes :=
            (addLocalNetworksToRoutes cfg ip env.getIfconfig s.mRoutes).1 }.getTunConfigString := by
  rw [openTun] at h
  split at h
  · obtain rfl := Option.some.inj h
    simp at hres
  · split at h
    next o' h4 =>
      obtain rfl := Option.some.inj h
      rcases (openIPv4_error h4).2 with hend | ⟨hend, -⟩ <;> simp [hend] at hres
    next t b h4 =>
      have hlocal : t.mLocalIP = s.mLocalIP := by rw [(openIPv4_ok h4).1]
      split at h
      next o' h6 =>
        obtain rfl := Option.some.inj h
        rcases (openIPv6_error h6).2 with hend | ⟨hend, -⟩ <;> simp [hend] at hres
      next b' h6 =>
        dsimp only at h
        split at h
        · obtain rfl := Option.some.inj h
          simp at hres
        · split at h
          · obtain rfl := Option.some.inj h
            obtain ⟨hsome, hclear, hlast⟩ := finishTun_established hres
            obtain ⟨ip, hip⟩ := Option.ne_none_iff_exists'.1 (hlocal ▸ hsome)
            obtain ⟨hkept, rfl⟩ := openIPv4_routes h4 hip
            exact ⟨ip, hip, hkept, hclear, hlast⟩
          · simp at h

/-- The networks of both directions are all networks. -/
theorem length_getNetworks (r : NetworkSpace) :
    (r.getNetworks true).length + (r.getNetworks false).length = r.mIpAddresses.length := by
  have hfalse : r.getNetworks false = r.mIpAddresses.filter fun ip => !(ip.included == true) :=
    List.filter_congr fun ip _ => by cases ip.included <;> rfl
  rw [hfalse, NetworkSpace.getNetworks]
  exact (List.length_eq_length_filter_add _).symm

/-- Every network has one slash in the text. -/
theorem count_join (l : List IpAddress) : (join l).count '/' = l.length := by
  induction l with
  | nil => rfl
  | cons a l ih =>
      have hone : a.toText.count '/' = 1 := by
        rw [toText_eq, List.count_append, List.count_cons_self,
          List.count_eq_zero_of_not_mem (notMem_addressText (by decide) a),
          List.count_eq_zero_of_not_mem (notMem_decimal (by decide) _)]
      rw [join_cons, List.count_append, hone, List.length_cons, Nat.add_comm]
      split
      next hnil => rw [hnil]; rfl
      next => rw [List.count_cons_of_ne (by decide), ih]

/-- With other routes and nothing else changed, an equal text has as many routes. -/
theorem length_of_getTunConfigString {r : NetworkSpace}
    (h : { s with mRoutes := r }.getTunConfigString = s.getTunConfigString) :
    r.mIpAddresses.length = s.mRoutes.mIpAddresses.length := by
  have hcount := congrArg (List.count '/') h
  rw [getTunConfigString_eq, getTunConfigString_eq] at hcount
  have hr := length_getNetworks r
  have hs := length_getNetworks s.mRoutes
  simp only [List.count_append, routesText, count_join] at hcount
  have hlocal : { s with mRoutes := r }.localText = s.localText := rfl
  have hnames : { s with mRoutes := r }.namesText = s.namesText := rfl
  rw [hlocal, hnames] at hcount
  omega

end TunState

/-! ## The replay -/

/-- **When the replayed configuration is the one of the device.** The answer is `NOACTION` exactly if
the networks of the local interfaces were among the pushed routes already. -/
theorem replay_noaction_iff (cfg : Setting) (env : OpenEnv) (s : { s : TunState // s.Clear })
    (pushes : List Push) (o : Opened) (h : (pushed cfg s.1 pushes).openTun cfg env = some o)
    (hres : o.result = .established) :
    (pushed cfg o.state pushes).getTunReopenStatus cfg = "NOACTION".toList ↔
      ∀ ip ∈ (pushed cfg s.1 pushes).mLocalIP,
        ∀ a ∈ TunState.localNetworks cfg ip env.getIfconfig,
          Known (pushed cfg s.1 pushes).mRoutes a := by
  obtain ⟨ip, hip, hkept, hclear, hlast⟩ := TunState.openTun_established h hres
  -- the second time the pushes make the same configuration
  have hstart : TunState.AgreesMtu o.state s.1 := by
    refine ⟨?_, fun hnone => absurd hclear.mLocalIP hnone⟩
    have ho := TunState.clear_iff_agrees.1 hclear
    have hs := TunState.clear_iff_agrees.1 s.2
    exact ⟨ho.mDnslist.trans hs.mDnslist.symm, ho.mRoutes.trans hs.mRoutes.symm,
      ho.mRoutesv6.trans hs.mRoutesv6.symm, ho.mDomain.trans hs.mDomain.symm,
      ho.mLocalIP.trans hs.mLocalIP.symm, ho.mLocalIPv6.trans hs.mLocalIPv6.symm,
      fun hnone => absurd hclear.mLocalIP hnone⟩
  have hagain := TunState.pushed_agreesMtu cfg hstart pushes
  have htext := TunState.getTunConfigString_agrees hagain (by simp [hagain.1.mLocalIP, hip])
  have hsorted : Sorted (pushed cfg s.1 pushes).mRoutes.mIpAddresses := by
    refine (TunState.pushed_keepsDevice cfg s.1 pushes).2 ?_
    rw [s.2.mRoutes]
    exact List.Pairwise.nil
  have hroutes := TunState.addLocalNetworksToRoutes_eq hkept
  generalize pushed cfg s.1 pushes = t at *
  rw [TunState.noaction_iff, (TunState.pushed_keepsDevice cfg o.state pushes).1, hlast, htext,
    Option.some_inj]
  constructor
  · intro hsame ip' hip' a ha
    obtain rfl := Option.some.inj (hip.symm.trans hip')
    have hlength := TunState.length_of_getTunConfigString (s := t) hsame
    rw [hroutes] at hlength
    exact known_iff.2 (known_of_length hsorted hlength a ha)
  · intro hknown
    have hkeys : ∀ a ∈ TunState.localNetworks cfg ip env.getIfconfig,
        ∃ b ∈ t.mRoutes.mIpAddresses, a.key = b.key := fun a ha =>
      known_iff.1 (hknown ip hip a ha)
    rw [eq_of_mIpAddresses (hroutes.trans (foldl_treeAdd_of_known hsorted hkeys))]

/-- An address and a route. -/
def tunnelPushes : List Push :=
  [.ifconfig "10.8.0.2 255.255.255.0 1500 subnet".toList,
    .route "172.16.0.0 255.240.0.0 10.8.0.1".toList]

/-- A call of `openTun` with a home network beside the tunnel. -/
def atHome : OpenEnv where
  getIfconfig := [some "wlan0".toList, some "192.168.1.5".toList, some "255.255.255.0".toList]
  rejectsAddress := fun _ _ => false
  rejectsMtu := fun _ => false
  notInstalled := fun _ => false
  choices := (0, List.replicate 8 0)
  choicesv6 := (0, [])
  establishes := true

theorem replay_noaction_twice :
    ∃ o, (pushed phone fresh.1 tunnelPushes).openTun phone atHome = some o ∧
      ((pushed phone o.state tunnelPushes).getTunReopenStatus phone = "NOACTION".toList ↔
        ∀ ip ∈ (pushed phone fresh.1 tunnelPushes).mLocalIP,
          ∀ a ∈ TunState.localNetworks phone ip atHome.getIfconfig,
            Known (pushed phone fresh.1 tunnelPushes).mRoutes a) := by
  have hopen : ∃ o, (pushed phone fresh.1 tunnelPushes).openTun phone atHome = some o ∧
      o.result = .established := by
    refine ⟨_, Option.some_get (by decide +kernel) |>.symm, by decide +kernel⟩
  obtain ⟨o, ho, hres⟩ := hopen
  exact ⟨o, ho, replay_noaction_iff phone atHome fresh tunnelPushes o ho hres⟩

/-- **The home network opens the device again.** With access to the local network allowed, the route
around the tunnel is in the text of the device and not in the text of the pushes. -/
theorem replay_counterexample :
    ∃ o, (pushed { phone with mAllowLocalLAN := true } fresh.1 tunnelPushes).openTun
        { phone with mAllowLocalLAN := true } atHome = some o ∧ o.result = .established ∧
      (pushed { phone with mAllowLocalLAN := true } o.state tunnelPushes).getTunReopenStatus
        { phone with mAllowLocalLAN := true } ≠ "NOACTION".toList :=
  ⟨_, Option.some_get (by decide +kernel) |>.symm, by decide +kernel, by decide +kernel⟩

end PortVpn.Service
