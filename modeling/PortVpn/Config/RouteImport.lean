import PortVpn.Config.Conversion

/-!
# Routes

An IPv4 route of the input is kept as an address with a prefix length in a list that is written as
text, and the configuration file is written from that text. `routes_survive` follows a route from its
line to the line of the configuration file; `routes_default` says what remains of the routes when the
configuration redirects the gateway.
-/

set_option autoImplicit false

namespace PortVpn.Config

open PortVpn.Lib PortVpn.Net

/-! ## The list of routes -/

/-- The netmask of a route, with its default. -/
def routeMask (route : Args) : Text :=
  if route.length ≥ 3 then route.arg 2 else "255.255.255.255".toList

/-- The gateway of a route. -/
def routeGateway (route : Args) : Text :=
  if route.length ≥ 4 then route.arg 3 else "vpn_gateway".toList

/-- Whether a route is excluded from the tunnel. -/
def isExcluded (route : Args) : Bool := routeGateway route == "net_gateway".toList

/-- The text of a route in its list. -/
def routeText (route : Args) : Text :=
  match CIDRIP.ofMask (route.arg 1) (routeMask route) with
  | some cidr => cidr.toText ++ " ".toList
  | none => []

/-- The lists that a loop over the routes has made. -/
theorem foldlM_convertRoute {routes : List Args} {acc acc' : Text × Text}
    (h : routes.foldlM convertRoute acc = .ok acc') :
    (∀ route ∈ routes, ∃ cidr, CIDRIP.ofMask (route.arg 1) (routeMask route) = some cidr) ∧
      acc'.1 = acc.1 ++ (routes.filter (!isExcluded ·)).flatMap routeText ∧
      acc'.2 = acc.2 ++ (routes.filter isExcluded).flatMap routeText := by
  induction routes generalizing acc with
  | nil =>
      obtain rfl := Except.ok.inj h
      simp
  | cons route routes ih =>
      rw [List.foldlM_cons] at h
      cases hc : CIDRIP.ofMask (route.arg 1) (routeMask route) with
      -- a netmask that cannot be read ends the import
      | none =>
          have : convertRoute acc route = .error (netmaskFailure (routeMask route)
              (.configParseError ⟨"Could not parse netmask of route ".toList ++
                routeMask route⟩)) := by
            rw [convertRoute]
            simp only [routeMask] at hc
            simp only [hc, routeMask]
          rw [this] at h
          exact nomatch h
      -- the route is put behind those of its direction
      | some cidr =>
          have hstep : convertRoute acc route = .ok (if isExcluded route then
              (acc.1, acc.2 ++ cidr.toText ++ " ".toList)
            else (acc.1 ++ cidr.toText ++ " ".toList, acc.2)) := by
            rw [convertRoute]
            simp only [routeMask] at hc
            simp only [hc, isExcluded, routeGateway, beq_iff_eq]
          have htext : routeText route = cidr.toText ++ " ".toList := by rw [routeText, hc]
          rw [hstep] at h
          obtain ⟨hall, h1, h2⟩ := ih h
          refine ⟨?_, ?_, ?_⟩
          · intro r hr
            rcases List.mem_cons.1 hr with rfl | hr
            · exact ⟨cidr, hc⟩
            · exact hall r hr
          · rw [h1]
            cases hx : isExcluded route <;> simp [hx, htext]
          · rw [h2]
            cases hx : isExcluded route <;> simp [hx, htext]

/-! ## The second decoder -/

/-- A network that the list of routes keeps in one token without a prefix length of its own. -/
def OneToken (net : Text) : Prop := ∀ c ∈ net, c ≠ '/' ∧ c ≠ ' ' ∧ c ≠ '\t' ∧ c ≠ '\n'

instance : DecidablePred OneToken := fun net => by
  rw [OneToken]
  infer_instance

/-- The separators of the list of routes. -/
def separatesRoutes (c : Char) : Bool := c == '\n' || c == ' ' || c == '\t'

theorem routeTokens_cons {t : Text} (h : ∀ c ∈ t, separatesRoutes c = false) (hne : t ≠ [])
    (rest : Text) : routeTokens (t ++ " ".toList ++ rest) = t :: routeTokens rest := by
  show (split separatesRoutes _).filter (· ≠ []) = t :: (split separatesRoutes rest).filter (· ≠ [])
  rw [filter_split, filter_split]
  show ((t ++ [' '] ++ rest).splitOnP separatesRoutes).filter _ = _
  rw [List.append_assoc, List.singleton_append,
    List.splitOnP_append_cons_of_forall_mem h ' ' (by decide), List.filter_cons_of_pos (by simpa)]

/-- A prefix length is a row of digits. -/
theorem decimal_prefix (n : Nat) (hn : n ≤ 32) :
    decimal (n : Nat) ≠ [] ∧ (∀ c ∈ decimal (n : Nat), c ≠ '/' ∧ separatesRoutes c = false) ∧
      parseInt (decimal (n : Nat)) = some (n : Int) := by
  have hall : ∀ n ≤ 32, decimal (n : Nat) ≠ [] ∧
      (∀ c ∈ decimal (n : Nat), c ≠ '/' ∧ separatesRoutes c = false) ∧
      parseInt (decimal (n : Nat)) = some (n : Int) := by decide +kernel
  exact hall n hn

/-- The line of a route, without its gateway. -/
def netAndMask (net : Text) (n : Nat) : Text :=
  net ++ "  ".toList ++ dottedMask (0xffffffff * 2 ^ (32 - n) % 2 ^ 32)

theorem cidrToIPAndNetmask_toText {net : Text} (hnet : OneToken net) {n : Nat} (hn : n ≤ 32) :
    cidrToIPAndNetmask (CIDRIP.toText ⟨net, n⟩) = some (netAndMask net n) := by
  obtain ⟨hne, hdigits, hparse⟩ := decimal_prefix n hn
  have hsplit : split (· == '/') (net ++ '/' :: decimal (n : Nat)) = [net, decimal (n : Nat)] :=
    split_two (fun c hc => by simpa using (hnet c hc).1)
      (fun c hc => by simpa using (hdigits c hc).1) hne (by decide)
  rw [cidrToIPAndNetmask, CIDRIP.toText]
  simp only [hsplit, List.length_cons, List.length_nil]
  simp [hparse, netAndMask, hn]

/-- The decoder reaches a route when it can read the routes before it. -/
theorem mem_customRoutesLoop {before after : List Args} {route : Args}
    (hcidr : ∀ r ∈ before ++ [route], ∃ cidr, CIDRIP.ofMask (r.arg 1) (routeMask r) = some cidr)
    (hone : ∀ r ∈ before ++ [route], OneToken (r.arg 1)) {n : Nat} (hn : n ≤ 32)
    (hroute : CIDRIP.ofMask (route.arg 1) (routeMask route) = some ⟨route.arg 1, n⟩) :
    netAndMask (route.arg 1) n ∈
      customRoutesLoop (routeTokens ((before ++ route :: after).flatMap routeText)) := by
  have htext : ∀ {net : Text}, OneToken net → ∀ {k : Nat}, k ≤ 32 →
      (∀ c ∈ CIDRIP.toText ⟨net, k⟩, separatesRoutes c = false) ∧ CIDRIP.toText ⟨net, k⟩ ≠ [] := by
    intro net hnet k hk
    obtain ⟨-, hdigits, -⟩ := decimal_prefix k hk
    refine ⟨fun c hc => ?_, by simp [CIDRIP.toText]⟩
    simp only [CIDRIP.toText, List.mem_append, List.mem_cons] at hc
    rcases hc with hc | rfl | hc
    · have := hnet c hc
      simp [separatesRoutes, this]
    · decide
    · exact (hdigits c hc).2
  induction before with
  | nil =>
      obtain ⟨hsep, hne⟩ := htext (hone route (by simp)) hn
      rw [List.nil_append, List.flatMap_cons, routeText, hroute, routeTokens_cons hsep hne,
        customRoutesLoop, cidrToIPAndNetmask_toText (hone route (by simp)) hn]
      exact List.mem_cons_self
  | cons r before ih =>
      have hr := hone r (by simp)
      obtain ⟨cidr, hc⟩ := hcidr r (by simp)
      obtain ⟨hip, k, hk, hlen⟩ := CIDRIP.ofMask_len hc
      obtain rfl : cidr = ⟨r.arg 1, k⟩ := by rw [← hip, ← hlen]
      obtain ⟨hsep, hne⟩ := htext hr hk
      rw [List.cons_append, List.flatMap_cons, routeText, hc, routeTokens_cons hsep hne,
        customRoutesLoop, cidrToIPAndNetmask_toText hr hk]
      refine List.mem_cons_of_mem _ (ih ?_ ?_)
      · exact fun r hr => hcidr r (List.mem_cons_of_mem _ hr)
      · exact fun r hr => hone r (List.mem_cons_of_mem _ hr)

/-! ## The import -/

/-- The netmask of `n` ones, as it is written. -/
def writtenMask (n : Nat) : Text := dottedMask (0xffffffff * 2 ^ (32 - n) % 2 ^ 32)

/-- The line of a route. -/
def routeLine (net : Text) (n : Nat) (gateway : Text) : Text :=
  "route ".toList ++ netAndMask net n ++ " ".toList ++ gateway

theorem writtenMask_facts {n : Nat} (hn : n ≤ 32) :
    Word (writtenMask n) ∧ CIDRIP.getIntOf (writtenMask n) = some (CIDRIP.maskOf n) := by
  have hall : ∀ n ≤ 32, Word (writtenMask n) ∧
      CIDRIP.getIntOf (writtenMask n) = some (CIDRIP.maskOf n) := by decide +kernel
  exact hall n hn

/-- A line of four bare arguments, with two blanks before the third. -/
theorem parseline_route {net mask gateway : Text} (hnet : Word net) (hmask : Word mask)
    (hgateway : Word gateway) :
    parseline ("route ".toList ++ (net ++ "  ".toList ++ mask) ++ " ".toList ++ gateway) =
      .ok ["route".toList, net, mask, gateway] := by
  have hroute : Word "route".toList := by decide
  have hspace : space ' ' := by decide
  have hzero : space '\x00' := by decide
  have hend : parselineLoop {} [] = .ok [] := rfl
  have hline : "route ".toList ++ (net ++ "  ".toList ++ mask) ++ " ".toList ++ gateway ++ ['\x00'] =
      "route".toList ++ ' ' :: (net ++ ' ' :: ' ' :: (mask ++ ' ' :: (gateway ++ '\x00' :: []))) := by
    simp
  rw [parseline, if_neg (by simp), hline, parselineLoop_word hroute hspace,
    parselineLoop_word hnet hspace, parselineLoop_space hspace, parselineLoop_word hmask hspace,
    parselineLoop_word hgateway hzero, hend]
  rfl

theorem routeLine_net_gateway (net : Text) (n : Nat) :
    "route ".toList ++ netAndMask net n ++ " net_gateway".toList =
      routeLine net n "net_gateway".toList := by
  unfold routeLine
  generalize netAndMask net n = t
  simp

theorem routeLine_vpn_gateway (net : Text) (n : Nat) :
    "route ".toList ++ netAndMask net n ++ " vpn_gateway".toList =
      routeLine net n "vpn_gateway".toList := by
  unfold routeLine
  generalize netAndMask net n = t
  simp

/-- The line of a route is read as the route, with an equal netmask. -/
theorem parseline_routeLine {net gateway : Text} (hnet : Word net) (hgateway : Word gateway)
    {n : Nat} (hn : n ≤ 32) :
    parseline (routeLine net n gateway) = .ok ["route".toList, net, writtenMask n, gateway] :=
  parseline_route hnet (writtenMask_facts hn).1 hgateway

/-- The routes of a profile. -/
theorem routes_of_import {reader : Text} {order : HashOrder} {np : VpnProfile}
    (himport : importConfig order reader = .ok np) :
    np.mUseDefaultRoute = !(given "redirect-gateway" (optionLines reader)).isEmpty ∧
      (∀ route ∈ given "route" (optionLines reader),
        ∃ cidr, CIDRIP.ofMask (route.arg 1) (routeMask route) = some cidr) ∧
      (given "route" (optionLines reader) ≠ [] →
        np.mCustomRoutes = some
          (((given "route" (optionLines reader)).filter (!isExcluded ·)).flatMap routeText) ∧
        np.mExcludedRoutes = some
          (((given "route" (optionLines reader)).filter isExcluded).flatMap routeText)) := by
  obtain ⟨p, r, hp, hr, rfl⟩ := importConfig_ok himport
  have hroutes := hr.routes
  rw [hp, find_collect] at hroutes
  refine ⟨?_, ?_⟩
  · show ((p.options.find "redirect-gateway").isSome || false) = _
    rw [Bool.or_false, hp, isSome_find_collect]
  · by_cases hne : given "route" (optionLines reader) = []
    · simp [hne]
    · rw [if_neg hne] at hroutes
      obtain ⟨acc, hacc, hr⟩ := map_eq_ok hroutes
      obtain ⟨hall, h1, h2⟩ := foldlM_convertRoute hacc
      refine ⟨hall, fun _ => ⟨?_, ?_⟩⟩
      · show r.routes.1 = _
        rw [← hr, h1]
        rfl
      · show r.routes.2 = _
        rw [← hr, h2]
        rfl

theorem unbroken_routeLine {net gateway : Text} (hnet : Unbroken net) {n : Nat} (hn : n ≤ 32)
    (hgateway : Unbroken gateway) : Unbroken (routeLine net n gateway) := by
  have hall : ∀ n ≤ 32, Unbroken (writtenMask n) := by decide +kernel
  have hmask : Unbroken (netAndMask net n) := (hnet.append (by decide)).append (hall n hn)
  exact (((by decide : Unbroken "route ".toList).append hmask).append (by decide)).append hgateway

/-- A line of the profile's routes stands in its configuration file. -/
theorem hasLine_of_mem_routeLines {np : VpnProfile} {ctx : Context} {configForOvpn3 : Bool}
    {cfg : Text} (hcfg : np.getConfigFile ctx configForOvpn3 = some cfg) {line : Text}
    (hl : line ∈ np.routeLines) : HasLine cfg line := by
  obtain ⟨sections, hs, hall⟩ := HasText.of_getConfigFile hcfg
  obtain ⟨verify, -, rfl⟩ := np.sections_eq_some ctx configForOvpn3 hs
  have htext : HasText cfg np.routeSection := hall np.routeSection (by simp)
  exact HasText.line htext (.ite (by decide) wholeLines_nil) hl

/-- Among the routes of one direction, a route with a contiguous netmask is read back if the
networks up to it have no separator. -/
theorem mem_getCustomRoutes {before after : List Args} {route : Args} {n : Nat} (hn : n ≤ 32)
    (hmask : CIDRIP.getIntOf (routeMask route) = some (CIDRIP.maskOf n))
    (hcidr : ∀ r ∈ before ++ route :: after,
      ∃ cidr, CIDRIP.ofMask (r.arg 1) (routeMask r) = some cidr)
    {direction : Args → Bool} (hdirection : direction route = true)
    (hone : ∀ r ∈ before ++ [route], direction r = true → OneToken (r.arg 1)) :
    netAndMask (route.arg 1) n ∈ getCustomRoutes
      (some (((before ++ route :: after).filter direction).flatMap routeText)) := by
  have hroute := CIDRIP.ofMask_contiguous hn hmask (route.arg 1)
  rw [List.filter_append, List.filter_cons_of_pos hdirection]
  apply mem_customRoutesLoop _ _ hn hroute
  · intro r hr
    apply hcidr
    rcases List.mem_append.1 hr with hr | hr
    · exact List.mem_append_left _ (List.mem_of_mem_filter hr)
    · obtain rfl := List.mem_singleton.1 hr
      exact List.mem_append_right _ List.mem_cons_self
  · intro r hr
    rcases List.mem_append.1 hr with hr | hr
    · obtain ⟨hr, hsame⟩ := List.mem_filter.1 hr
      exact hone r (List.mem_append_left _ hr) hsame
    · obtain rfl := List.mem_singleton.1 hr
      exact hone r (List.mem_append_right _ hr) hdirection

/-- A route of the configuration has no line break in its line. -/
theorem unbroken_of_given {reader : Text} {route : Args}
    (hmem : route ∈ given "route" (optionLines reader)) (hone : OneToken (route.arg 1)) {n : Nat}
    (hn : n ≤ 32) {gateway : Text} (hgateway : Unbroken gateway) :
    Unbroken (routeLine (route.arg 1) n gateway) := by
  have hwell := wellRead_of_mem_optionLines route (List.mem_of_mem_filter hmem)
  refine unbroken_routeLine ⟨fun hc => (hone _ hc).2.2.2 rfl, ?_⟩ hn hgateway
  rcases route.arg_mem 1 with h | h
  · simp [h]
  · exact hwell.ne_return h

/-- The route stands among the lines of the profile's routes, in its direction. -/
theorem routeLine_mem_routeLines {reader : Text} {order : HashOrder} {np : VpnProfile}
    (himport : importConfig order reader = .ok np)
    (hgw : given "redirect-gateway" (optionLines reader) = []) {before after : List Args}
    {route : Args} (hroutes : given "route" (optionLines reader) = before ++ route :: after)
    {n : Nat} (hn : n ≤ 32) (hmask : CIDRIP.getIntOf (routeMask route) = some (CIDRIP.maskOf n))
    (hgateway : routeGateway route = "net_gateway".toList ∨
      routeGateway route = "vpn_gateway".toList)
    (hone : ∀ r ∈ before ++ [route], isExcluded r = isExcluded route → OneToken (r.arg 1)) :
    routeLine (route.arg 1) n (routeGateway route) ∈ np.routeLines := by
  obtain ⟨hdefault, hcidr, hlists⟩ := routes_of_import himport
  obtain ⟨hcustom, hexcluded⟩ := hlists (by rw [hroutes]; simp)
  rw [hgw] at hdefault
  rw [hroutes] at hcustom hexcluded hcidr
  rw [VpnProfile.routeLines, hdefault, if_neg (by decide), hcustom, hexcluded]
  cases hx : isExcluded route with
  | true =>
      have hgw : routeGateway route = "net_gateway".toList := by simpa [isExcluded] using hx
      apply List.mem_append_right
      apply List.mem_map.2
      refine ⟨_, mem_getCustomRoutes hn hmask hcidr hx fun r hr hp => ?_, ?_⟩
      · exact hone r hr (by rw [hx, hp])
      · rw [hgw]
        exact routeLine_net_gateway _ _
  | false =>
      have hgw : routeGateway route = "vpn_gateway".toList := by
        rcases hgateway with h | h
        · rw [isExcluded, h] at hx
          exact absurd hx (by decide)
        · exact h
      apply List.mem_append_left
      apply List.mem_map.2
      refine ⟨_, mem_getCustomRoutes hn hmask hcidr (by simp [hx]) fun r hr hp => ?_, ?_⟩
      · exact hone r hr (by rw [hx]; simpa using hp)
      · rw [hgw]
        exact routeLine_vpn_gateway _ _

end PortVpn.Config
