import PortVpn.Service.TunRoutes

/-!
# Networks without host bits

The builder wants the address of a route to have no bits outside its prefix. `addRoute` and the
route for the interface's own network normalise what they add, and both halves of a split network
begin at their first address, so that the IPv4 networks are as they should be. `addRoutev6` takes
the address as it comes (`canonicalRoutes_counterexample`). In a run whose IPv6 routes into the VPN
have no host bits, every included network that reaches the builder has none
(`canonicalRoutes_of_route6`).
-/

set_option autoImplicit false

namespace PortVpn.Net.IpAddress

variable {a : IpAddress}

/-- The address of the network is its first address. -/
def HostBitsZero (a : IpAddress) : Prop := a.netAddress = a.getFirstAddress

instance : DecidablePred HostBitsZero := fun a =>
  inferInstanceAs (Decidable (a.netAddress = a.getFirstAddress))

theorem hostBitsZero_iff : a.HostBitsZero ↔ (2 : Int) ^ a.numBits ∣ a.netAddress := by
  rw [HostBitsZero, getFirstAddress_eq]
  constructor
  · intro h
    rw [h]
    exact Dvd.intro_left _ rfl
  · intro h
    exact (Int.ediv_mul_cancel h).symm

theorem dvd_getFirstAddress (a : IpAddress) : (2 : Int) ^ a.numBits ∣ a.getFirstAddress := by
  rw [getFirstAddress_eq]
  exact Dvd.intro_left _ rfl

/-- A half has no more bits outside its prefix than the network. -/
theorem numBits_firstHalf_le (a : IpAddress) : a.firstHalf.numBits ≤ a.numBits := by
  exact Int.toNat_le_toNat (Int.sub_le_sub_left (Int.le_add_one (le_refl _)) _)

theorem firstHalf_hostBitsZero (a : IpAddress) : a.firstHalf.HostBitsZero := by
  rw [hostBitsZero_iff]
  exact (pow_dvd_pow 2 a.numBits_firstHalf_le).trans a.dvd_getFirstAddress

/-- The second half begins behind the last address of the first. -/
theorem secondHalf_hostBitsZero (a : IpAddress) : a.secondHalf.HostBitsZero := by
  rw [hostBitsZero_iff]
  have hnum : a.secondHalf.numBits = a.firstHalf.numBits := rfl
  have hnet : a.secondHalf.netAddress = a.firstHalf.block.last + 1 := by
    rw [← getLastAddress_eq]
    rfl
  rw [hnum, hnet, Lib.Block.last, Int.sub_add_cancel]
  exact Int.dvd_add (Dvd.intro_left _ rfl) (Int.dvd_refl _)

end PortVpn.Net.IpAddress

namespace PortVpn.Service

open PortVpn.Lib PortVpn.Net

/-- An included network has no host bits. -/
def IncludedCanonical (a : IpAddress) : Prop := a.included = true → a.HostBitsZero

/-- What is added to the IPv4 routes is normalised, half a network, or excluded. -/
theorem holdsOfAdded_canonical : HoldsOfAdded IncludedCanonical where
  normalised := by
    intro c r included a hlow hlen hr ha _
    obtain ⟨hlen', n, hn, hdvd⟩ := CIDRIP.normalise_dvd hlow hr
    rw [IpAddress.ofCIDR, hn] at ha
    obtain rfl := Option.some.inj ha
    rw [IpAddress.hostBitsZero_iff, IpAddress.numBits, hlen']
    exact hdvd
  halves := by
    intro c a _
    exact ⟨fun _ => a.firstHalf_hostBitsZero, fun _ => a.secondHalf_hostBitsZero⟩
  excluded := by
    intro c a ha hincl
    obtain ⟨n, -, rfl⟩ := Option.map_eq_some_iff.1 ha
    exact absurd hincl Bool.false_ne_true

/-- The networks that `getPositiveIPList` returns, from networks that are canonical where they are
included. -/
theorem getPositiveIPList_hostBitsZero {s : NetworkSpace} {kitkat : Bool} {choice : Nat}
    {choices : List Nat} {ips : List IpAddress} (h : ∀ a ∈ s.mIpAddresses, IncludedCanonical a)
    (hips : generateIPList choice choices s.mIpAddresses = some ips) :
    ∀ a ∈ s.getPositiveIPList kitkat ips, a.HostBitsZero := by
  have hall : ∀ a ∈ ips, IncludedCanonical a :=
    forall_generateIPList (fun a _ _ => a.firstHalf_hostBitsZero)
      (fun a _ _ => a.secondHalf_hostBitsZero) h hips
  intro a ha
  rw [NetworkSpace.getPositiveIPList] at ha
  have hfilter : ∀ a ∈ ips.filter fun ia => ia.included, a.HostBitsZero := by
    intro a ha
    obtain ⟨hmem, hincl⟩ := List.mem_filter.1 ha
    exact hall a hmem hincl
  split at ha
  · exact hfilter a ha
  · rcases List.mem_append.1 ha with ha | ha
    · exact hfilter a ha
    · -- before Android 4.4 included networks are put back as they were added
      obtain ⟨hmem, hcond⟩ := List.mem_filter.1 ha
      simp only [Bool.and_eq_true] at hcond
      exact h a hmem hcond.1.1

/-- The message is a `ROUTE6` into the VPN whose address has bits outside its prefix. -/
def Push.HasHostBits (cfg : Setting) (p : Push) : Prop :=
  ∃ a ∈ p.network6 cfg, a.included = true ∧ ¬ a.HostBitsZero

/-- **Included networks without host bits.** In a run of attempts in which no `ROUTE6` into the VPN
has host bits, every included network that `openTun` gets in any state, for any interfaces and any
order of the queues, has the address that its prefix masks. -/
theorem canonicalRoutes_of_route6 (cfg : Setting) (s : { s : TunState // s.Clear })
    (ls : List TunEvent)
    (hls : ∀ x ∈ Machine.history (Attempts.step cfg) (Attempts.init s) ls, ∀ p,
      x.label = .push p → ¬ p.HasHostBits cfg)
    {a : Attempts} (ha : Machine.Visits (Attempts.step cfg) (Attempts.init s) ls a)
    (env : OpenEnv) {ips ipsv6 : List IpAddress}
    (hips : generateIPList env.choices.1 env.choices.2
      (a.tun.routesWithLocal cfg env).mIpAddresses = some ips)
    (hipsv6 : generateIPList env.choicesv6.1 env.choicesv6.2 a.tun.mRoutesv6.mIpAddresses =
      some ipsv6) :
    ∀ net ∈ (a.tun.routesWithLocal cfg env).getPositiveIPList cfg.kitkat ips ++
        a.tun.mRoutesv6.getPositiveIPList cfg.kitkat ipsv6,
      net.netAddress = net.getFirstAddress := by
  have hholds : TunState.RoutesHold IncludedCanonical IncludedCanonical a.tun := by
    refine visits_routesHold holdsOfAdded_canonical ?_ ha
    intro x hx p hp net hnet hincl
    by_contra hbits
    exact hls x hx p hp ⟨net, hnet, hincl, hbits⟩
  have hlocal : TunState.RoutesHold IncludedCanonical IncludedCanonical
      { a.tun with mRoutes := a.tun.routesWithLocal cfg env } :=
    hholds.withLocal holdsOfAdded_canonical
  intro net hnet
  rcases List.mem_append.1 hnet with hnet | hnet
  · exact getPositiveIPList_hostBitsZero hlocal.routes hips net hnet
  · exact getPositiveIPList_hostBitsZero hholds.routesv6 hipsv6 net hnet

/-- A device that resolves every IPv6 address to `2001:db8::1`. -/
def resolving : Setting :=
  { phone with
    getAllByName := fun _ => .inet6 [0x20, 0x01, 0x0d, 0xb8, 0, 0, 0, 0, 0, 0, 0, 0, 0, 0, 0, 1] }

/-- The interface's own network, a route with host bits, which is normalised, and an IPv6 host. -/
def canonicalPushes : List TunEvent :=
  [.push (.ifconfig "10.8.0.2 255.255.255.0 1500 subnet".toList),
    .push (.route "192.168.7.9 255.255.0.0 10.8.0.1 dev tun0".toList),
    .push (.route6 "2001:db8::1/128 tun0".toList)]

theorem canonicalRoutes_of_route6_host :
    ∃ a ips ipsv6, Machine.Visits (Attempts.step resolving) (Attempts.init fresh)
        canonicalPushes a ∧ ips.length = 2 ∧ ipsv6.length = 1 ∧
      ∀ net ∈ (a.tun.routesWithLocal resolving undisturbed).getPositiveIPList true ips ++
        a.tun.mRoutesv6.getPositiveIPList true ipsv6, net.netAddress = net.getFirstAddress := by
  let a := ((Machine.history (Attempts.step resolving) (Attempts.init fresh)
    canonicalPushes).getLast (by decide +kernel)).post
  let env : OpenEnv := { undisturbed with choicesv6 := (0, [0]) }
  let ips : List IpAddress := [⟨0x0A080000, 24, true, true⟩, ⟨0xC0A80000, 16, true, true⟩]
  let ipsv6 : List IpAddress := [⟨0x20010db8000000000000000000000001, 128, true, false⟩]
  have hips : generateIPList env.choices.1 env.choices.2
      (a.tun.routesWithLocal resolving env).mIpAddresses = some ips := by decide +kernel
  have hipsv6 : generateIPList env.choicesv6.1 env.choicesv6.2 a.tun.mRoutesv6.mIpAddresses =
      some ipsv6 := by decide +kernel
  refine ⟨a, ips, ipsv6, Or.inr ⟨_, List.getLast_mem _, rfl⟩, rfl, rfl, ?_⟩
  refine canonicalRoutes_of_route6 resolving fresh canonicalPushes ?_
    (Or.inr ⟨_, List.getLast_mem _, rfl⟩) env hips hipsv6
  intro x hx p hp hbits
  have hpushes : ∀ p ∈ [Push.ifconfig "10.8.0.2 255.255.255.0 1500 subnet".toList,
      Push.route "192.168.7.9 255.255.0.0 10.8.0.1 dev tun0".toList,
      Push.route6 "2001:db8::1/128 tun0".toList], ∀ a ∈ p.network6 resolving, a.HostBitsZero := by
    decide +kernel
  have hlabel := Machine.label_mem_of_mem_history hx
  rw [hp, canonicalPushes] at hlabel
  obtain ⟨net, hnet, -, hnot⟩ := hbits
  refine hnot (hpushes p ?_ net hnet)
  simpa using hlabel

/-- **A network with host bits**: the route `2001:db8::1/32` into the VPN. -/
theorem canonicalRoutes_counterexample :
    ∃ a ipsv6, Machine.Visits (Attempts.step resolving) (Attempts.init fresh)
        [.push (.ifconfig "10.8.0.2 255.255.255.0 1500 subnet".toList),
          .push (.route6 "2001:db8::1/32 tun0".toList)] a ∧
      generateIPList 0 [0] a.tun.mRoutesv6.mIpAddresses = some ipsv6 ∧
      ∃ net ∈ a.tun.mRoutesv6.getPositiveIPList true ipsv6,
        net.netAddress ≠ net.getFirstAddress := by
  let a := ((Machine.history (Attempts.step resolving) (Attempts.init fresh)
    [.push (.ifconfig "10.8.0.2 255.255.255.0 1500 subnet".toList),
      .push (.route6 "2001:db8::1/32 tun0".toList)]).getLast (by decide +kernel)).post
  let net : IpAddress := ⟨0x20010db8000000000000000000000001, 32, true, false⟩
  exact ⟨a, [net], Or.inr ⟨_, List.getLast_mem _, rfl⟩, by decide +kernel, net, by decide +kernel,
    by decide +kernel⟩

end PortVpn.Service
