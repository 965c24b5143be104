import PortVpn.Service.TunRoutes

/-!
# When opening the tun device throws

`openTun` checks its inputs one by one and hands them to a builder that may refuse them. It
survives a refused address, name server or route. It does not survive a configuration with an IPv6
address only, whose IPv4 address it reads for a log message; an IPv6 address without a prefix
length; a refused MTU; nor an app that is gone, unless it is the last one of the set under
iteration (`openTun_counterexample`). `openTun_attempt_returns_iff` says of every state that a run
of attempts reaches exactly when the call returns a device or `null`.
-/

set_option autoImplicit false

namespace PortVpn.Service

open PortVpn.Lib PortVpn.Net

/-- The same call of `openTun`, with a number of rounds for each of the two queues. -/
def OpenEnv.polling (env : OpenEnv) (order orderv6 : Nat → Nat) (rounds roundsv6 : Nat) : OpenEnv :=
  { env with
    choices := (env.choices.1, (List.range rounds).map order)
    choicesv6 := (env.choicesv6.1, (List.range roundsv6).map orderv6) }

namespace TunState

/-- Where the local networks are used, the addresses of every interface can be read. The list comes
in groups of three. -/
def InterfacesReadable (cfg : Setting) (mLocalIP : CIDRIP) : List (Option Text) → Prop
  | [] => True
  | intf :: ipAddr :: netMask :: localRoutes =>
      (∀ ip ∈ ipAddr, ∀ mask ∈ netMask, ignoredInterface intf = false → ip ≠ mLocalIP.mIp →
        cfg.kitkat = cfg.mAllowLocalLAN → ((CIDRIP.ofMask ip mask).bind CIDRIP.getInt).isSome) ∧
        InterfacesReadable cfg mLocalIP localRoutes
  | _ => False

/-- **The condition to return.** There is no address at all; or the interfaces can be read, and the
IPv4 address is refused; or the IPv6 address has a prefix length, and is refused or has a length
that is no number; or else the MTU is accepted, there is an IPv4 address, and no app is gone but
possibly the last one. -/
def Survives (cfg : Setting) (env : OpenEnv) (s : TunState) : Prop :=
  (s.mLocalIP = none ∧ s.mLocalIPv6 = none) ∨
    (∀ ip ∈ s.mLocalIP, InterfacesReadable cfg ip env.getIfconfig) ∧
      ((∃ ip ∈ s.mLocalIP, env.rejectsAddress ip.mIp ip.len = true) ∨
        (∀ ip6 ∈ s.mLocalIPv6, 2 ≤ (split (· == '/') ip6).length) ∧
          ((∃ ip6 ∈ s.mLocalIPv6, rejectsIPv6 env ip6 = true) ∨
            env.rejectsMtu (s.builderMtu cfg) = false ∧ s.mLocalIP ≠ none ∧
              (cfg.lollipop = true → ∀ pkg ∈ s.mAllowedAppsVpn.dropLast,
                env.notInstalled pkg = false)))

variable {cfg : Setting} {env : OpenEnv} {s : TunState}

/-! ## The parts of the call -/

theorem addLocalNetwork_isSome {mRoutes : NetworkSpace} {ip mask : Text} :
    (addLocalNetwork cfg mRoutes ip mask).isSome ↔ (cfg.kitkat = cfg.mAllowLocalLAN →
      ((CIDRIP.ofMask ip mask).bind CIDRIP.getInt).isSome) := by
  rw [addLocalNetwork]
  cases hk : cfg.kitkat <;> cases hl : cfg.mAllowLocalLAN <;>
    simp [NetworkSpace.addIP, NetworkSpace.addIPSplit, IpAddress.ofCIDR, Option.isSome_bind]

/-- The local networks are added without an exception exactly if the interfaces can be read. -/
theorem addLocalNetworksToRoutes_iff {ip : CIDRIP} {localRoutes : List (Option Text)}
    {mRoutes : NetworkSpace} :
    (addLocalNetworksToRoutes cfg ip localRoutes mRoutes).2 = false ↔
      InterfacesReadable cfg ip localRoutes := by
  induction localRoutes, mRoutes using addLocalNetworksToRoutes.induct cfg ip with
  | case1 mRoutes => simp [addLocalNetworksToRoutes, InterfacesReadable]
  -- the interface that has the address of the tunnel is skipped
  | case2 intf localRoutes mRoutes netMask hintf ih =>
      simp only [addLocalNetworksToRoutes, hintf, if_true, InterfacesReadable]
      rw [ih]
      simp
  -- the interface cannot be read
  | case3 intf localRoutes mRoutes ipAddr netMask hintf hip hadd =>
      simp only [addLocalNetworksToRoutes, hintf, if_neg hip, hadd, InterfacesReadable]
      refine iff_of_false (by simp) ?_
      rintro ⟨hread, -⟩
      have hsome : (addLocalNetwork cfg mRoutes ipAddr netMask).isSome :=
        addLocalNetwork_isSome.2 (hread ipAddr rfl netMask rfl trivial hip)
      rw [hadd] at hsome
      exact Bool.false_ne_true hsome
  -- the interface is read and added
  | case4 intf localRoutes mRoutes ipAddr netMask hintf hip mRoutes' hadd ih =>
      simp only [addLocalNetworksToRoutes, hintf, if_neg hip, hadd, InterfacesReadable]
      rw [ih]
      have hsome := addLocalNetwork_isSome.1 (Option.isSome_iff_exists.2 ⟨_, hadd⟩)
      constructor
      · intro hrest
        refine ⟨?_, hrest⟩
        intro ip' hip' mask' hmask' _ _
        obtain rfl := Option.some.inj hip'
        obtain rfl := Option.some.inj hmask'
        exact hsome
      · exact And.right
  -- an interface that is ignored, or has no address or netmask
  | case5 intf ipAddr netMask localRoutes mRoutes hskip ih =>
      rw [addLocalNetworksToRoutes]
      · rw [ih, InterfacesReadable]
        constructor
        · intro hrest
          refine ⟨?_, hrest⟩
          intro ip' hip' mask' hmask' hignored
          exact absurd hmask' (hskip _ _ hignored hip')
        · exact And.right
      · exact hskip
  -- fewer than three entries are left
  | case6 localRoutes mRoutes hnil hthree =>
      rw [addLocalNetworksToRoutes]
      · refine iff_of_false (by simp) ?_
        rw [InterfacesReadable]
        · exact id
        · exact hnil
        · exact hthree
      · exact hnil
      · exact hthree

/-- An app that is gone stops the loop unless it is the last one. -/
theorem setAllowedVpnPackages_iff {notInstalled : Text → Bool} {pkgs : List Text} :
    (setAllowedVpnPackages notInstalled pkgs).2 = false ↔
      ∀ pkg ∈ pkgs.dropLast, notInstalled pkg = false := by
  induction pkgs with
  | nil => simp [setAllowedVpnPackages]
  | cons pkg pkgs ih =>
      rw [setAllowedVpnPackages]
      cases pkgs with
      | nil =>
          split
          · simp
          · simp [setAllowedVpnPackages]
      | cons next rest =>
          rw [List.dropLast_cons_cons, List.forall_mem_cons]
          split
          next hgone => simp [hgone]
          next hthere =>
            rw [ih]
            simp [hthere]

/-- How the part for the IPv4 address ends. -/
theorem openIPv4_result (cfg : Setting) (env : OpenEnv) (s : TunState) :
    (∃ o, s.openIPv4 cfg env = .error o ∧ o.result = .thrown ∧
        ¬ ∀ ip ∈ s.mLocalIP, InterfacesReadable cfg ip env.getIfconfig) ∨
      (∀ ip ∈ s.mLocalIP, InterfacesReadable cfg ip env.getIfconfig) ∧
        ((∃ o, s.openIPv4 cfg env = .error o ∧ o.result = .null ∧
            ∃ ip ∈ s.mLocalIP, env.rejectsAddress ip.mIp ip.len = true) ∨
          (∃ b, s.openIPv4 cfg env = .ok ({ s with mRoutes := s.routesWithLocal cfg env }, b)) ∧
            ¬ ∃ ip ∈ s.mLocalIP, env.rejectsAddress ip.mIp ip.len = true) := by
  cases hip : s.mLocalIP with
  | none =>
      refine Or.inr ⟨by simp, Or.inr ⟨⟨{}, ?_⟩, by simp⟩⟩
      simp only [openIPv4, hip, routesWithLocal]
      rw [← hip]
  | some ip =>
      simp only [openIPv4, hip, routesWithLocal, Option.mem_some, forall_eq', exists_eq_left']
      cases hthrown : (addLocalNetworksToRoutes cfg ip env.getIfconfig s.mRoutes).2 with
      | true =>
          refine Or.inl ⟨_, if_pos rfl, rfl, ?_⟩
          rw [← @addLocalNetworksToRoutes_iff cfg ip env.getIfconfig s.mRoutes, hthrown]
          exact fun h => Bool.noConfusion h
      | false =>
          refine Or.inr ⟨addLocalNetworksToRoutes_iff.1 hthrown, ?_⟩
          cases hrej : env.rejectsAddress ip.mIp ip.len with
          | true => exact Or.inl ⟨_, rfl, rfl, rfl⟩
          | false => exact Or.inr ⟨⟨_, rfl⟩, fun h => Bool.noConfusion h⟩

/-- How the part for the IPv6 address ends. -/
theorem openIPv6_result (env : OpenEnv) (s : TunState) (b : Builder) :
    (∃ o, s.openIPv6 env b = .error o ∧ o.result = .thrown ∧
        ¬ ∀ ip6 ∈ s.mLocalIPv6, 2 ≤ (split (· == '/') ip6).length) ∨
      (∀ ip6 ∈ s.mLocalIPv6, 2 ≤ (split (· == '/') ip6).length) ∧
        ((∃ o, s.openIPv6 env b = .error o ∧ o.result = .null ∧
            ∃ ip6 ∈ s.mLocalIPv6, rejectsIPv6 env ip6 = true) ∨
          (∃ b', s.openIPv6 env b = .ok b') ∧
            ¬ ∃ ip6 ∈ s.mLocalIPv6, rejectsIPv6 env ip6 = true) := by
  cases hip : s.mLocalIPv6 with
  | none =>
      refine Or.inr ⟨by simp, Or.inr ⟨⟨b, ?_⟩, by simp⟩⟩
      simp only [openIPv6, hip]
  | some ip6 =>
      simp only [openIPv6, rejectsIPv6, hip, Option.mem_some, forall_eq', exists_eq_left']
      rcases hsplit : split (· == '/') ip6 with _ | ⟨ip, _ | ⟨len, rest⟩⟩
      · exact Or.inl ⟨_, rfl, rfl, by simp⟩
      · exact Or.inl ⟨_, rfl, rfl, by simp⟩
      · refine Or.inr ⟨by simp, ?_⟩
        cases hlen : parseInt len with
        | none => exact Or.inl ⟨⟨s, b, .null⟩, by simp [hlen], rfl, by simp [hlen]⟩
        | some n =>
            cases hrej : env.rejectsAddress ip n with
            | true =>
                exact Or.inl ⟨⟨s, b, .null⟩, by simp [hlen, hrej], rfl, by simp [hlen, hrej]⟩
            | false =>
                refine Or.inr ⟨⟨{ b with addresses := b.addresses ++ [(ip, n)] }, ?_⟩, ?_⟩
                · simp [hlen, hrej]
                · simp [hlen, hrej]

/-- The last part reads the IPv4 address and goes through the apps. -/
theorem finishTun_result (cfg : Setting) (env : OpenEnv) (s : TunState) (b : Builder) :
    (finishTun cfg env s b).result ≠ .thrown ↔ s.mLocalIP ≠ none ∧
      (cfg.lollipop = true → ∀ pkg ∈ s.mAllowedAppsVpn.dropLast, env.notInstalled pkg = false) := by
  rw [finishTun]
  dsimp only
  split
  next hnone => simp [hnone]
  next hsome =>
    rw [and_iff_right hsome]
    have hend : (if env.establishes then TunResult.established else .null) ≠ .thrown := by
      split
      · decide
      · decide
    cases hl : cfg.lollipop with
    | false => simpa using hend
    | true =>
        rw [if_pos rfl, ← setAllowedVpnPackages_iff]
        cases (setAllowedVpnPackages env.notInstalled s.mAllowedAppsVpn).2 with
        | true => simp
        | false => simpa using hend

/-- A call that ends returns exactly under the condition. -/
theorem openTun_result_iff {o : Opened} (h : s.openTun cfg env = some o) :
    o.result ≠ .thrown ↔ s.Survives cfg env := by
  rw [openTun] at h
  rw [Survives]
  split at h
  -- without an address the call returns null
  next hnone =>
    obtain rfl := Option.some.inj h
    exact iff_of_true (fun hres => TunResult.noConfusion hres) (Or.inl hnone)
  next hsome =>
    rw [or_iff_right hsome]
    rcases openIPv4_result cfg env s with ⟨o', h4, hres, hread⟩ | ⟨hread, hrest⟩
    · -- an interface cannot be read
      rw [h4] at h
      obtain rfl := Option.some.inj h
      exact iff_of_false (not_not.2 hres) fun hs => hread hs.1
    rw [and_iff_right hread]
    rcases hrest with ⟨o', h4, hres, hrej⟩ | ⟨⟨b, h4⟩, hrej⟩
    · -- the IPv4 address is refused
      rw [h4] at h
      obtain rfl := Option.some.inj h
      exact iff_of_true (by rw [hres]; decide) (Or.inl hrej)
    rw [or_iff_right hrej]
    rw [h4] at h
    dsimp only at h
    rcases openIPv6_result env { s with mRoutes := s.routesWithLocal cfg env } b with
      ⟨o', h6, hres, hparts⟩ | ⟨hparts, hrest⟩
    · -- the IPv6 address has no length
      rw [h6] at h
      obtain rfl := Option.some.inj h
      exact iff_of_false (not_not.2 hres) fun hs => hparts hs.1
    rw [and_iff_right hparts]
    rcases hrest with ⟨o', h6, hres, hrej⟩ | ⟨⟨b', h6⟩, hrej⟩
    · -- the IPv6 address is refused
      rw [h6] at h
      obtain rfl := Option.some.inj h
      exact iff_of_true (by rw [hres]; decide) (Or.inl hrej)
    rw [or_iff_right hrej]
    rw [h6] at h
    dsimp only at h
    split at h
    -- the builder refuses the MTU, outside of any try
    next hmtu =>
      obtain rfl := Option.some.inj h
      refine iff_of_false (not_not.2 rfl) fun hs => ?_
      exact Bool.noConfusion (hs.1.symm.trans hmtu)
    -- what is left is `finishTun`, and a call that does not end is none here
    next hmtu =>
      have hmtu : env.rejectsMtu (s.builderMtu cfg) = false := by
        rw [← Bool.not_eq_true]
        exact hmtu
      split at h
      · obtain rfl := Option.some.inj h
        rw [finishTun_result, and_iff_right hmtu]
      · simp at h

/-! ## The call ends -/

/-- Networks of each space are of its address family. -/
theorem holdsOfAdded_isV4 : HoldsOfAdded (fun a => a.isV4 = true) where
  normalised := by
    intro c r included a _ _ _ ha
    obtain ⟨n, -, rfl⟩ := Option.map_eq_some_iff.1 ha
    rfl
  halves := by
    intro c a ha
    obtain ⟨n, -, rfl⟩ := Option.map_eq_some_iff.1 ha
    exact ⟨rfl, rfl⟩
  excluded := by
    intro c a ha
    obtain ⟨n, -, rfl⟩ := Option.map_eq_some_iff.1 ha
    rfl

theorem network6_isV4 {p : Push} {a : IpAddress} (h : a ∈ p.network6 cfg) : a.isV4 = false := by
  have hroute : ∀ network device, a ∈ routev6Network cfg network device → a.isV4 = false := by
    intro network device hroute
    unfold routev6Network at hroute
    dsimp only at hroute
    split at hroute
    · obtain ⟨mask, -, rfl⟩ := Option.map_eq_some_iff.1 hroute
      rfl
    · simp at hroute
  cases p with
  | route6 extra =>
      simp only [Push.network6] at h
      split at h
      · exact hroute _ _ h
      · simp at h
  | _ => simp [Push.network6] at h

/-- Whatever the queues return among equal networks, the call ends. -/
theorem openTun_ends (h : RoutesHold (fun a => a.isV4 = true) (fun a => a.isV4 = false) s)
    (order orderv6 : Nat → Nat) :
    ∃ rounds roundsv6 o, s.openTun cfg (env.polling order orderv6 rounds roundsv6) = some o := by
  have hlocal : RoutesHold _ _ { s with mRoutes := s.routesWithLocal cfg env } :=
    h.withLocal holdsOfAdded_isV4
  obtain ⟨rounds, ips, hips⟩ :=
    generateIPList_ends_of_family hlocal.routes env.choices.1 order
  obtain ⟨roundsv6, ipsv6, hipsv6⟩ :=
    generateIPList_ends_of_family h.routesv6 env.choicesv6.1 orderv6
  refine ⟨rounds, roundsv6, ?_⟩
  rw [openTun]
  split
  · exact ⟨_, rfl⟩
  · rcases openIPv4_result cfg (env.polling order orderv6 rounds roundsv6) s with
      ⟨o, h4, -, -⟩ | ⟨-, ⟨o, h4, -, -⟩ | ⟨⟨b, h4⟩, -⟩⟩
    · exact ⟨o, by rw [h4]⟩
    · exact ⟨o, by rw [h4]⟩
    · rw [h4]
      dsimp only
      cases h6 : openIPv6 (env.polling order orderv6 rounds roundsv6)
          { s with mRoutes := s.routesWithLocal cfg (env.polling order orderv6 rounds roundsv6) } b with
      | error o => exact ⟨o, rfl⟩
      | ok b' =>
          dsimp only
          split
          · exact ⟨_, rfl⟩
          · have h4 : generateIPList (env.polling order orderv6 rounds roundsv6).choices.1
                (env.polling order orderv6 rounds roundsv6).choices.2
                (s.routesWithLocal cfg (env.polling order orderv6 rounds roundsv6)).mIpAddresses =
                some ips := hips
            have h6 : generateIPList (env.polling order orderv6 rounds roundsv6).choicesv6.1
                (env.polling order orderv6 rounds roundsv6).choicesv6.2 s.mRoutesv6.mIpAddresses =
                some ipsv6 := hipsv6
            rw [h4, h6]
            exact ⟨_, rfl⟩

end TunState

/-- **When `openTun` returns.** In every state that a run of attempts reaches, and for every builder
and every order of the queues, the call ends, and it ends with a device or `null` exactly under the
condition; otherwise it throws. -/
theorem openTun_attempt_returns_iff (cfg : Setting) (s : { s : TunState // s.Clear })
    (ls : List TunEvent) {a : Attempts}
    (ha : Machine.Visits (Attempts.step cfg) (Attempts.init s) ls a)
    (env : OpenEnv) (order orderv6 : Nat → Nat) :
    ∃ rounds roundsv6 o,
      a.tun.openTun cfg (env.polling order orderv6 rounds roundsv6) = some o ∧
        (o.result ≠ .thrown ↔ a.tun.Survives cfg env) := by
  have hfamily : TunState.RoutesHold (fun a => a.isV4 = true) (fun a => a.isV4 = false) a.tun :=
    visits_routesHold TunState.holdsOfAdded_isV4
      (fun _ _ _ _ _ hnet => TunState.network6_isV4 hnet) ha
  obtain ⟨rounds, roundsv6, o, ho⟩ := TunState.openTun_ends hfamily order orderv6
  have hiff : o.result ≠ .thrown ↔
      a.tun.Survives cfg (env.polling order orderv6 rounds roundsv6) :=
    TunState.openTun_result_iff ho
  exact ⟨rounds, roundsv6, o, ho, hiff⟩

/-- An address and a name server are enough for a device. -/
theorem openTun_attempt_returns_iff_once :
    ∃ a rounds roundsv6 o, Machine.Visits (Attempts.step phone) (Attempts.init fresh)
        (pushesWith "10.8.0.1") a ∧ a.tun.mLocalIPv6 = none ∧
      a.tun.openTun phone (undisturbed.polling (fun _ => 0) (fun _ => 0) rounds roundsv6) =
        some o ∧ o.result ≠ .thrown := by
  let a := ((Machine.history (Attempts.step phone) (Attempts.init fresh)
    (pushesWith "10.8.0.1")).getLast (by decide +kernel)).post
  have hvisits : Machine.Visits (Attempts.step phone) (Attempts.init fresh)
      (pushesWith "10.8.0.1") a := Or.inr ⟨_, List.getLast_mem _, rfl⟩
  have hip : a.tun.mLocalIP = some ⟨"10.8.0.2".toList, 24⟩ := by decide +kernel
  have hip6 : a.tun.mLocalIPv6 = none := by decide +kernel
  have happs : a.tun.mAllowedAppsVpn = [] := by decide +kernel
  obtain ⟨rounds, roundsv6, o, ho, hiff⟩ := openTun_attempt_returns_iff phone fresh
    (pushesWith "10.8.0.1") hvisits undisturbed (fun _ => 0) (fun _ => 0)
  refine ⟨a, rounds, roundsv6, o, hvisits, hip6, ho, hiff.2 (Or.inr ⟨?_, Or.inr ⟨?_, Or.inr ?_⟩⟩)⟩
  · exact fun _ _ => trivial
  · simp [hip6]
  · exact ⟨rfl, by simp [hip], by simp [happs]⟩

/-- **Opening a device with an IPv6 address only throws**, however the builder behaves: the IPv4
address is read for a log message. -/
theorem openTun_counterexample :
    ∃ a o, Machine.Visits (Attempts.step phone) (Attempts.init fresh)
        [.push (.ifconfig6 "fd00::2/64".toList), .persistTunAction] a ∧
      a.tun.mLocalIPv6 = some "fd00::2/64".toList ∧
      a.tun.openTun phone undisturbed = some o ∧ o.result = .thrown := by
  let a := ((Machine.history (Attempts.step phone) (Attempts.init fresh)
    [.push (.ifconfig6 "fd00::2/64".toList), .persistTunAction]).getLast (by decide +kernel)).post
  refine ⟨a, (a.tun.openTun phone undisturbed).get (by decide +kernel),
    Or.inr ⟨_, List.getLast_mem _, rfl⟩, by decide +kernel, by simp, by decide +kernel⟩

end PortVpn.Service
