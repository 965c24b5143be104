import PortVpn.Config.ConvertProfile
import Mathlib.Data.List.Forall2

/-!
# What a conversion sets

Every group of `convertProfile` is inverted once: a group that returns has found arguments of the
expected number, has removed its options from the map, and has set its fields from what the map held
under their names. `convertOptions_ok` puts the groups together, in terms of the map with which the
conversion starts.
-/

set_option autoImplicit false

namespace PortVpn.Config

open PortVpn.Lib

/-! ## The map during a conversion -/

namespace Options

variable {o : Options} {name other : String}

/-- The last argument list under a name. -/
def last (name : String) (o : Options) : Option Args := (o.find name).bind List.getLast?

/-- The map without some options. -/
def without (names : List String) (o : Options) : Options :=
  names.foldl (fun o name => o.remove name) o

theorem without_without (names names' : List String) (o : Options) :
    (o.without names).without names' = o.without (names ++ names') := by
  rw [without, without, without, List.foldl_append]

theorem find_without (names : List String) (o : Options) :
    (o.without names).find name = if name ∈ names then none else o.find name := by
  induction names generalizing o with
  | nil => simp [without]
  | cons n names ih =>
      rw [without, List.foldl_cons, ← without, ih, find_remove]
      by_cases hn : n = name
      · simp [hn]
      · simp [hn, Ne.symm hn]

theorem last_without (names : List String) (o : Options) :
    (o.without names).last name = if name ∈ names then none else o.last name := by
  rw [last, find_without]
  split <;> rfl

theorem find_without_of {names : List String} (h : name ∉ names) :
    (o.without names).find name = o.find name := by
  rw [find_without, if_neg h]

theorem last_without_of {names : List String} (h : name ∉ names) :
    (o.without names).last name = o.last name := by
  rw [last_without, if_neg h]

theorem mem_without {names : List String} {e : Text × List Args} :
    e ∈ o.without names ↔ e ∈ o ∧ ∀ name ∈ names, e.1 ≠ name.toList := by
  induction names generalizing o with
  | nil => simp [without]
  | cons n names ih =>
      rw [without, List.foldl_cons, ← without, ih, mem_remove]
      simp [and_assoc]

theorem remove_cons (e : Text × List Args) :
    remove name (e :: o) = if e.1 = name.toList then remove name o else e :: remove name o := by
  simp [remove, List.filter_cons]

theorem without_nil : o.without [] = o := rfl

theorem without_cons (names : List String) :
    o.without (name :: names) = (o.remove name).without names := rfl

theorem remove_put {v : List Args} (h : name ≠ other) :
    (o.put name v).remove other = (o.remove other).put name v := by
  have hne : name.toList ≠ other.toList := fun he => h (String.toList_inj.1 he)
  induction o with
  | nil => simp [put, remove, hne]
  | cons e o ih =>
      obtain ⟨key, w⟩ := e
      by_cases hk : key = name.toList
      · subst hk
        simp [put, remove, hne]
      · rw [put, if_neg hk, remove_cons, remove_cons, ih]
        split
        · rfl
        · rw [put, if_neg hk]

theorem without_put {v : List Args} {names : List String} (h : name ∉ names) :
    (o.put name v).without names = (o.without names).put name v := by
  induction names generalizing o with
  | nil => rfl
  | cons n names ih =>
      obtain ⟨hn, hm⟩ := not_or.1 (mt List.mem_cons.2 h)
      simp only [without, List.foldl_cons] at ih ⊢
      rw [remove_put hn, ih hm]

end Options

/-! ## Steps of a parser -/

section

variable {α β : Type} {o o' : Options} {option : String} {minarg maxarg : Nat}

/-- The argument lists under a name have an expected length. -/
def Counted (o : Options) (option : String) (minarg maxarg : Nat) : Prop :=
  ∀ args ∈ (o.find option).getD [], minarg + 1 ≤ args.length ∧ args.length ≤ maxarg + 1

theorem bind_ok {x : Parser α} {f : α → Parser β} {r : β × Options} :
    (x >>= f) o = .ok r ↔ ∃ a o', x o = .ok (a, o') ∧ f a o' = .ok r := by
  show (x o >>= fun s => f s.1 s.2) = .ok r ↔ _
  cases x o with
  | error e => simp [bind, Except.bind]
  | ok s =>
      obtain ⟨a, o'⟩ := s
      simp [bind, Except.bind]

theorem pure_ok {a b : α} : (pure a : Parser α) o = .ok (b, o') ↔ b = a ∧ o' = o := by
  show Except.ok (a, o) = .ok (b, o') ↔ _
  simp [eq_comm]

theorem lift_ok {x : Except Thrown α} {b : α} :
    (liftM x : Parser α) o = .ok (b, o') ↔ x = .ok b ∧ o' = o := by
  show (x >>= fun a => Except.ok (a, o)) = .ok (b, o') ↔ _
  cases x with
  | error e => simp [bind, Except.bind]
  | ok a => simp [bind, Except.bind, eq_comm]

theorem modify_ok {f : Options → Options} {u : Unit} :
    (modify f : Parser Unit) o = .ok (u, o') ↔ o' = f o := by
  show Except.ok ((), f o) = .ok (u, o') ↔ _
  simp [eq_comm]

theorem get_ok {o'' : Options} : (get : Parser Options) o = .ok (o'', o') ↔ o'' = o ∧ o' = o := by
  show Except.ok (o, o) = .ok (o'', o') ↔ _
  simp [eq_comm]

theorem mapM_cons {x : α} {l : List α} {f : α → Except Thrown β} :
    (x :: l).mapM f = f x >>= fun b => (l.mapM f).map (b :: ·) := by
  rw [List.mapM_cons]
  cases f x with
  | error e => rfl
  | ok b => cases l.mapM f <;> rfl

/-- A loop that returns has returned in every round. -/
theorem mapM_ok {f : α → Except Thrown β} {l : List α} {r : List β} (h : l.mapM f = .ok r) :
    List.Forall₂ (fun a b => f a = .ok b) l r := by
  induction l generalizing r with
  | nil =>
      cases h
      exact .nil
  | cons a l ih =>
      rw [mapM_cons] at h
      cases ha : f a with
      | error e =>
          rw [ha] at h
          exact nomatch h
      | ok b =>
          rw [ha] at h
          obtain ⟨r, hr, rfl⟩ := map_eq_ok h
          exact .cons ha (ih hr)

theorem remove_of_find_eq_none {name : String} (h : o.find name = none) : o.remove name = o := by
  rw [Options.find_eq_none_iff] at h
  exact List.filter_eq_self.2 fun e he => by simpa using h e he

theorem getAllOption_ok {v : Option (List Args)} :
    getAllOption option minarg maxarg o = .ok (v, o') ↔
      Counted o option minarg maxarg ∧ v = o.find option ∧ o' = o.without [option] := by
  rw [getAllOption, Counted]
  cases hf : o.find option with
  | none => simp [Options.without_cons, Options.without_nil, remove_of_find_eq_none hf, eq_comm]
  | some all =>
      simp only [Option.getD_some]
      split
      · rename_i args hbad
        have hp := List.find?_some hbad
        have hm := List.mem_of_find?_eq_some hbad
        simp only [fail, Bool.or_eq_true, decide_eq_true_eq, reduceCtorEq, false_iff] at hp ⊢
        rintro ⟨hall, -⟩
        have := hall args hm
        omega
      · rename_i hgood
        rw [List.find?_eq_none] at hgood
        have hall : ∀ args ∈ all, minarg + 1 ≤ args.length ∧ args.length ≤ maxarg + 1 := by
          intro args ha
          have := hgood args ha
          simp only [Bool.or_eq_true, decide_eq_true_eq] at this
          omega
        simp only [Except.ok.injEq, Prod.mk.injEq]
        exact ⟨fun h => ⟨hall, h.1.symm, h.2.symm⟩, fun h => ⟨h.2.1.symm, h.2.2.symm⟩⟩

theorem getOption_ok {v : Option Args} :
    getOption option minarg maxarg o = .ok (v, o') ↔
      Counted o option minarg maxarg ∧ v = o.last option ∧ o' = o.without [option] := by
  simp only [getOption, bind_ok, getAllOption_ok, pure_ok]
  constructor
  · rintro ⟨_, _, ⟨hc, rfl, rfl⟩, rfl, rfl⟩
    exact ⟨hc, rfl, rfl⟩
  · rintro ⟨hc, rfl, rfl⟩
    exact ⟨_, _, ⟨hc, rfl, rfl⟩, rfl, rfl⟩

theorem takePull_ok {pull : Bool} (h : takePull o = .ok (pull, o')) :
    pull = ((o.find "client").isSome || (o.find "pull").isSome) ∧
      o' = o.without ["pull", "client"] := by
  rw [takePull] at h
  split at h
  · rename_i hs
    cases h
    refine ⟨?_, rfl⟩
    rcases hs with hs | hs <;> simp [hs]
  · rename_i hs
    cases h
    simp only [not_or, Bool.not_eq_true, Option.isSome_eq_false_iff, Option.isNone_iff_eq_none] at hs
    simp [hs, Options.without_cons, Options.without_nil, remove_of_find_eq_none]

theorem counted_without {names : List String} (h : option ∉ names) :
    Counted (o.without names) option minarg maxarg ↔ Counted o option minarg maxarg := by
  rw [Counted, Counted, Options.find_without, if_neg h]

end

/-! ## The groups -/

section

variable {np np' : VpnProfile} {o o' : Options}

theorem convertRouting_ok (h : convertRouting np o = .ok (np', o')) :
    ∃ routes, convertRoutes np (o.find "route") = .ok routes ∧ Counted o "route" 1 4 ∧
      np' = setRouting ((o.find "client").isSome || (o.find "pull").isSome) (o.last "secret") routes
        (o.find "route-ipv6") (o.last "route-nopull") np ∧
      o' = o.without
        ["pull", "client", "secret", "route", "route-ipv6", "route-nopull"] := by
  simp only [convertRouting, bind_ok, getOption_ok, getAllOption_ok, pure_ok, lift_ok] at h
  obtain ⟨pull, _, hp, secret, _, ⟨-, rfl, rfl⟩, routes, _, ⟨hc, rfl, rfl⟩, routes, _, ⟨hr, rfl⟩,
    v6, _, ⟨-, rfl, rfl⟩, nopull, _, ⟨-, rfl, rfl⟩, rfl, rfl⟩ := h
  obtain ⟨rfl, rfl⟩ := takePull_ok hp
  simp only [Options.without_without] at hc hr ⊢
  rw [Options.find_without, if_neg (by decide)] at hr
  rw [counted_without (by decide)] at hc
  refine ⟨routes, hr, hc, ?_, rfl⟩
  simp [Options.find_without, Options.last_without]

theorem convertTlsAuth_ok (h : convertTlsAuth np o = .ok (np', o')) :
    np' = setTlsAuths (o.find "tls-auth") (o.last "key-direction") (o.find "redirect-gateway")
        (o.find "redirect-private") np ∧
      o' = o.without ["tls-auth", "key-direction", "redirect-gateway", "redirect-private"] := by
  simp only [convertTlsAuth, bind_ok, getOption_ok, getAllOption_ok, pure_ok] at h
  obtain ⟨_, _, ⟨-, rfl, rfl⟩, _, _, ⟨-, rfl, rfl⟩, _, _, ⟨-, rfl, rfl⟩, _, _, ⟨-, rfl, rfl⟩,
    rfl, rfl⟩ := h
  refine ⟨?_, rfl⟩
  simp [Options.without_without, Options.find_without, Options.last_without]

theorem convertDevice_ok (h : convertDevice np o = .ok (np', o')) :
    ∃ mssFix address, convertIfconfig np (o.last "ifconfig") = .ok address ∧
      Counted o "dhcp-option" 2 2 ∧
      np' = setDevice mssFix (o.find "dhcp-option") address np ∧
      o' = o.without ["dev", "dev-type", "mssfix", "mode", "dhcp-option", "ifconfig"] := by
  simp only [convertDevice, bind_ok, getOption_ok, getAllOption_ok, pure_ok, lift_ok] at h
  obtain ⟨_, _, ⟨-, rfl, rfl⟩, _, _, ⟨-, rfl, rfl⟩, _, _, ⟨-, rfl⟩, _, _, ⟨-, rfl, rfl⟩,
    mssFix, _, ⟨-, rfl⟩, _, _, ⟨-, rfl, rfl⟩, _, _, ⟨-, rfl⟩, _, _, ⟨hc, rfl, rfl⟩,
    _, _, ⟨-, rfl, rfl⟩, address, _, ⟨ha, rfl⟩, rfl, rfl⟩ := h
  simp only [Options.without_without] at hc ha ⊢
  rw [Options.last_without, if_neg (by decide)] at ha
  rw [counted_without (by decide)] at hc
  refine ⟨mssFix, address, ha, hc, ?_, rfl⟩
  simp [Options.find_without]

theorem convertCiphers_ok (h : convertCiphers np o = .ok (np', o')) :
    np' = setCiphers (o.last "remote-random-hostname") (o.last "float") (o.last "comp-lzo")
        (o.last "cipher") (o.last "auth") np ∧
      o' = o.without ["remote-random-hostname", "float", "comp-lzo", "cipher", "auth"] := by
  simp only [convertCiphers, bind_ok, getOption_ok, pure_ok] at h
  obtain ⟨_, _, ⟨-, rfl, rfl⟩, _, _, ⟨-, rfl, rfl⟩, _, _, ⟨-, rfl, rfl⟩, _, _, ⟨-, rfl, rfl⟩,
    _, _, ⟨-, rfl, rfl⟩, rfl, rfl⟩ := h
  refine ⟨?_, rfl⟩
  simp [Options.without_without, Options.last_without]

theorem convertCertificates_ok {noauthtypeset : Bool} {r : VpnProfile × Bool}
    (h : convertCertificates np noauthtypeset o = .ok (r, o')) :
    r.1 = setCertificates (o.last "ca") (o.last "cert") (o.last "key") (o.last "pkcs12")
        (o.last "cryptoapicert") np ∧
      r.2 = (noauthtypeset && (o.last "cert").isNone && (o.last "pkcs12").isNone &&
        (o.last "cryptoapicert").isNone) ∧
      Counted o "ca" 1 1 ∧
      o' = o.without ["ca", "cert", "key", "pkcs12", "cryptoapicert"] := by
  simp only [convertCertificates, bind_ok, getOption_ok, pure_ok] at h
  obtain ⟨_, _, ⟨hc, rfl, rfl⟩, _, _, ⟨-, rfl, rfl⟩, _, _, ⟨-, rfl, rfl⟩, _, _, ⟨-, rfl, rfl⟩,
    _, _, ⟨-, rfl, rfl⟩, rfl, rfl⟩ := h
  refine ⟨?_, ?_, hc, rfl⟩ <;> simp [Options.without_without, Options.last_without]

theorem convertVerification_ok (h : convertVerification np o = .ok (np', o')) :
    ∃ remoteCN, convertVerifyX509Name (convertTlsRemote np (o.last "compat-names")
        (o.last "no-name-remapping") (o.last "tls-remote")) (o.last "verify-x509-name") =
          .ok remoteCN ∧
      Counted o "verify-x509-name" 1 2 ∧
      np' = setVerification (o.last "tls-remote") (o.last "verify-x509-name") remoteCN
        (o.last "x509-username-field") np ∧
      o' = o.without ["compat-names", "no-name-remapping", "tls-remote", "verify-x509-name",
        "x509-username-field"] := by
  simp only [convertVerification, bind_ok, getOption_ok, pure_ok, lift_ok] at h
  obtain ⟨_, _, ⟨-, rfl, rfl⟩, _, _, ⟨-, rfl, rfl⟩, _, _, ⟨-, rfl, rfl⟩, _, _, ⟨hc, rfl, rfl⟩,
    remoteCN, _, ⟨hv, rfl⟩, _, _, ⟨-, rfl, rfl⟩, rfl, rfl⟩ := h
  simp only [Options.without_without, Options.last_without] at hc hv ⊢
  rw [counted_without (by decide)] at hc
  refine ⟨remoteCN, ?_, hc, ?_, rfl⟩
  · simpa using hv
  · simp

theorem convertConnecting_ok (h : convertConnecting np o = .ok (np', o')) :
    np' = setConnecting (o.last "verb") (o.last "nobind") (o.last "persist-tun")
        (o.last "push-peer-info") (o.last "connect-retry") (o.last "connect-retry-max") np ∧
      o' = o.without ["verb", "nobind", "persist-tun", "push-peer-info", "connect-retry",
        "connect-retry-max"] := by
  simp only [convertConnecting, bind_ok, getOption_ok, pure_ok] at h
  obtain ⟨_, _, ⟨-, rfl, rfl⟩, _, _, ⟨-, rfl, rfl⟩, _, _, ⟨-, rfl, rfl⟩, _, _, ⟨-, rfl, rfl⟩,
    _, _, ⟨-, rfl, rfl⟩, _, _, ⟨-, rfl, rfl⟩, rfl, rfl⟩ := h
  refine ⟨?_, rfl⟩
  simp [Options.without_without, Options.last_without]

theorem convertRemoteCertTls_ok (h : convertRemoteCertTls np o = .ok (np', o')) :
    np' = setRemoteCertTls (o.find "remote-cert-tls") np ∧
      o' = putRemoteTls (o.find "remote-cert-tls") (o.without ["remote-cert-tls"]) := by
  simp only [convertRemoteCertTls, bind_ok, getAllOption_ok, pure_ok, modify_ok] at h
  obtain ⟨_, _, ⟨-, rfl, rfl⟩, _, _, rfl, rfl, rfl⟩ := h
  exact ⟨rfl, rfl⟩

theorem convertUser_ok {noauthtypeset : Bool} (h : convertUser np noauthtypeset o = .ok (np', o')) :
    np' = setUser noauthtypeset (o.last "auth-user-pass") (o.last "crl-verify") np ∧
      Counted o "crl-verify" 1 2 ∧
      o' = o.without ["auth-user-pass", "crl-verify"] := by
  simp only [convertUser, bind_ok, getOption_ok, pure_ok] at h
  obtain ⟨_, _, ⟨-, rfl, rfl⟩, _, _, ⟨hc, rfl, rfl⟩, rfl, rfl⟩ := h
  refine ⟨?_, ?_, rfl⟩
  · simp [Options.last_without]
  · rwa [counted_without (by decide)] at hc

/-- The options of a connection. -/
def connectionOptions : List String := ["port", "rport", "proto", "connect-timeout", "remote"]

/-- The connection that the options in a map describe, with the protocol and the time they have been
read as. -/
def describedConnection (conn : Connection) (useUdp : Bool) (timeout : Int) (o : Options) :
    Connection :=
  { conn with
    mServerPort := (o.last "rport").elim ((o.last "port").elim conn.mServerPort (·.arg 1)) (·.arg 1)
    mUseUdp := useUdp
    mConnectTimeout := timeout }

theorem parseConnectionOptions_ok {order : HashOrder} {connDefault : Option Connection}
    {r : Connection × List Connection}
    (h : parseConnectionOptions order connDefault o = .ok (r, o')) :
    ∃ useUdp timeout,
      convertProto (connDefault.getD {}) (o.last "proto") = .ok useUdp ∧
      convertConnectTimeout (connDefault.getD {}) (o.last "connect-timeout") = .ok timeout ∧
      r.1 = customConfiguration order connDefault
        (describedConnection (connDefault.getD {}) useUdp timeout o)
        (o.without connectionOptions) ∧
      ((o.find "remote").getD []).mapM (m := Except Thrown) (remoteConnection r.1) = .ok r.2 ∧
      Counted o "remote" 1 3 ∧
      o' = o.without connectionOptions := by
  simp only [parseConnectionOptions, bind_ok, getOption_ok, getAllOption_ok, pure_ok, lift_ok,
    get_ok] at h
  obtain ⟨_, _, ⟨-, rfl, rfl⟩, _, _, ⟨-, rfl, rfl⟩, _, _, ⟨-, rfl, rfl⟩, useUdp, _, ⟨hp, rfl⟩,
    _, _, ⟨-, rfl, rfl⟩, timeout, _, ⟨ht, rfl⟩, _, _, ⟨hc, rfl, rfl⟩, _, _, ⟨rfl, rfl⟩,
    connections, _, ⟨hm, rfl⟩, rfl, rfl⟩ := h
  simp only [Options.without_without, Options.last_without, Options.find_without] at hp ht hc hm ⊢
  rw [counted_without (by decide)] at hc
  refine ⟨useUdp, timeout, ?_, ?_, ?_, ?_, hc, rfl⟩
  · simpa using hp
  · simpa using ht
  · simp [describedConnection, connectionOptions]
  · simpa using hm

/-- A block is read as a configuration of its own. -/
theorem parseConnection_ok (order : HashOrder) (connection : Text) (defaultValues : Connection)
    (r : Connection × List Connection) :
    parseConnection order connection defaultValues = .ok r ↔
      INLINE_TAG.length ≤ javaLength connection ∧
        ∃ p o', parseConfig (substring INLINE_TAG.length connection) = .ok p ∧
          parseConnectionOptions order (some defaultValues) p.options = .ok (r, o') := by
  rw [parseConnection]
  split
  · rename_i hshort
    exact iff_of_false (fun h => nomatch h) fun h => by omega
  · rename_i hlen
    cases parseConfig (substring INLINE_TAG.length connection) with
    | error e => simp [bind, Except.bind]
    | ok p =>
        cases hc : parseConnectionOptions order (some defaultValues) p.options with
        | error e => simp [bind, Except.bind, hc]
        | ok s =>
            obtain ⟨r', o'⟩ := s
            simp [bind, Except.bind, pure, Except.pure, hc]
            omega

theorem convertConnections_ok {order : HashOrder} (h : convertConnections order np o = .ok (np', o')) :
    ∃ conns connections enabled,
      parseConnectionOptions order none o = .ok (conns, o.without connectionOptions) ∧
      connectionsOf order conns (o.find "connection") = .ok connections ∧
      convertProtoForce connections (o.last "proto-force") = .ok enabled ∧
      Counted o "connection" 1 1 ∧
      np' = setConnections enabled (o.last "remote-random") np ∧
      o' = o.without (connectionOptions ++ ["connection", "remote-random", "proto-force"]) := by
  simp only [convertConnections, bind_ok, getOption_ok, getAllOption_ok, pure_ok, lift_ok] at h
  obtain ⟨conns, _, hconns, _, _, ⟨hc, rfl, rfl⟩, connections, _, ⟨hcs, rfl⟩, _, _, ⟨-, rfl, rfl⟩,
    _, _, ⟨-, rfl, rfl⟩, enabled, _, ⟨he, rfl⟩, rfl, rfl⟩ := h
  obtain ⟨_, _, -, -, -, -, -, rfl⟩ := parseConnectionOptions_ok hconns
  simp only [Options.without_without, Options.last_without, Options.find_without] at hc hcs he ⊢
  rw [counted_without (by decide)] at hc
  refine ⟨conns, connections, enabled, hconns, ?_, ?_, hc, ?_, rfl⟩
  · simpa [connectionOptions] using hcs
  · simpa [connectionOptions] using he
  · simp [connectionOptions]

theorem checkIgnoreAndInvalidOptions_ok {order : HashOrder}
    (h : checkIgnoreAndInvalidOptions order np o = .ok (np', o')) :
    (∀ option ∈ unsupportedOptions, o.find option = none) ∧
      np' = setCustomOptions order (o.without ignoreOptions) np := by
  rw [checkIgnoreAndInvalidOptions] at h
  split at h
  · exact nomatch h
  · rename_i hnone
    obtain ⟨hnp, -⟩ := Prod.mk.inj (Except.ok.inj h)
    refine ⟨fun option ho => ?_, hnp.symm⟩
    simpa using List.find?_eq_none.1 hnone option ho

end

/-! ## The whole conversion -/

-- from here on lookups go through the lemmas on `without`
attribute [irreducible] Options.without

/-- The options that are taken out of the map before `remote-cert-tls`. -/
def optionsBefore : List String :=
  ["pull", "client", "secret", "route", "route-ipv6", "route-nopull", "tls-auth", "key-direction",
    "redirect-gateway", "redirect-private", "dev", "dev-type", "mssfix", "mode", "dhcp-option",
    "ifconfig", "remote-random-hostname", "float", "comp-lzo", "cipher", "auth", "ca", "cert", "key",
    "pkcs12", "cryptoapicert", "compat-names", "no-name-remapping", "tls-remote",
    "verify-x509-name", "x509-username-field", "verb", "nobind", "persist-tun", "push-peer-info",
    "connect-retry", "connect-retry-max"]

/-- The options that are taken out of the map after `remote-cert-tls`. -/
def optionsAfter : List String :=
  ["auth-user-pass", "crl-verify", "port", "rport", "proto", "connect-timeout", "remote",
    "connection", "remote-random", "proto-force"]

/-- The options that a conversion does not pass on as custom options. -/
def takenOptions : List String := optionsBefore ++ ["remote-cert-tls"] ++ optionsAfter ++ ignoreOptions

/-- The options that become custom options. -/
def customOptions (o : Options) : Options :=
  putRemoteTls (o.find "remote-cert-tls") (o.without takenOptions)

/-- The values that a conversion reads with a check of their form. -/
structure Readings where
  routes : Option Text × Option Text
  mssFix : Int
  address : Option Text
  remoteCN : Text × X509AuthType
  conns : Connection × List Connection
  connections : List Connection
  enabled : List Connection

/-- The profile of a conversion with these values. -/
def Readings.profile (r : Readings) (order : HashOrder) (p : ConfigParser) : VpnProfile :=
  let o := p.options
  let np := setRouting ((o.find "client").isSome || (o.find "pull").isSome) (o.last "secret")
    r.routes (o.find "route-ipv6") (o.last "route-nopull") convertedProfile
  let np := setTlsAuths (o.find "tls-auth") (o.last "key-direction") (o.find "redirect-gateway")
    (o.find "redirect-private") np
  let np := setDevice r.mssFix (o.find "dhcp-option") r.address np
  let np := setCiphers (o.last "remote-random-hostname") (o.last "float") (o.last "comp-lzo")
    (o.last "cipher") (o.last "auth") np
  let noauthtypeset := np.mAuthenticationType ≠ TYPE_STATICKEYS && (o.last "cert").isNone &&
    (o.last "pkcs12").isNone && (o.last "cryptoapicert").isNone
  let np := setCertificates (o.last "ca") (o.last "cert") (o.last "key") (o.last "pkcs12")
    (o.last "cryptoapicert") np
  let np := setVerification (o.last "tls-remote") (o.last "verify-x509-name") r.remoteCN
    (o.last "x509-username-field") np
  let np := setConnecting (o.last "verb") (o.last "nobind") (o.last "persist-tun")
    (o.last "push-peer-info") (o.last "connect-retry") (o.last "connect-retry-max") np
  let np := setRemoteCertTls (o.find "remote-cert-tls") np
  let np := setUser noauthtypeset (o.last "auth-user-pass") (o.last "crl-verify") np
  let np := setConnections r.enabled (o.last "remote-random") np
  fixup (setCustomOptions order (customOptions o) (setMeta p np))

/-- The values are those that the options give, in the expected numbers of arguments. -/
structure Readings.Of (r : Readings) (order : HashOrder) (o : Options) : Prop where
  routes : convertRoutes convertedProfile (o.find "route") = .ok r.routes
  routeCount : Counted o "route" 1 4
  dhcpCount : Counted o "dhcp-option" 2 2
  caCount : Counted o "ca" 1 1
  remoteCN : convertVerifyX509Name (convertTlsRemote convertedProfile (o.last "compat-names")
    (o.last "no-name-remapping") (o.last "tls-remote")) (o.last "verify-x509-name") = .ok r.remoteCN
  verifyCount : Counted o "verify-x509-name" 1 2
  crlCount : Counted o "crl-verify" 1 2
  conns : ∃ o', parseConnectionOptions order none (putRemoteTls (o.find "remote-cert-tls")
    (o.without (optionsBefore ++ ["remote-cert-tls", "auth-user-pass", "crl-verify"]))) =
      .ok (r.conns, o')
  connections : connectionsOf order r.conns (o.find "connection") = .ok r.connections
  enabled : convertProtoForce r.connections (o.last "proto-force") = .ok r.enabled
  supported : ∀ option ∈ unsupportedOptions, o.find option = none

theorem without_putRemoteTls {remotetls : Option (List Args)} {o : Options} {names : List String}
    (h : "remotetls" ∉ names) :
    (putRemoteTls remotetls o).without names = putRemoteTls remotetls (o.without names) := by
  unfold putRemoteTls
  cases remotetls with
  | none => rfl
  | some all =>
      simp only
      split
      · rfl
      · exact Options.without_put h

theorem find_putRemoteTls {remotetls : Option (List Args)} {o : Options} {name : String}
    (h : "remotetls" ≠ name) : (putRemoteTls remotetls o).find name = o.find name := by
  unfold putRemoteTls
  cases remotetls with
  | none => rfl
  | some all =>
      simp only
      split
      · rfl
      · rw [Options.find_put, if_neg h]

theorem last_putRemoteTls {remotetls : Option (List Args)} {o : Options} {name : String}
    (h : "remotetls" ≠ name) : (putRemoteTls remotetls o).last name = o.last name := by
  rw [Options.last, find_putRemoteTls h, Options.last]

/-- **What a conversion makes of the options.** -/
theorem convertProfile_ok {order : HashOrder} {p : ConfigParser} {np : VpnProfile}
    (h : convertProfile order p = .ok np) :
    ∃ r : Readings, r.Of order p.options ∧ np = r.profile order p := by
  obtain ⟨⟨np, o'⟩, hc, rfl⟩ := map_eq_ok h
  simp only [convertOptions, bind_ok] at hc
  obtain ⟨np1, _, h1, np2, _, h2, np3, _, h3, np4, _, h4, ⟨np5, noauth⟩, _, h5, np6, _, h6,
    np7, _, h7, np8, _, h8, np9, _, h9, np10, _, h10, h11⟩ := hc
  obtain ⟨routes, hroutes, hrc, rfl, rfl⟩ := convertRouting_ok h1
  obtain ⟨rfl, rfl⟩ := convertTlsAuth_ok h2
  obtain ⟨mssFix, address, -, hdc, rfl, rfl⟩ := convertDevice_ok h3
  obtain ⟨rfl, rfl⟩ := convertCiphers_ok h4
  obtain ⟨h5', hnoauth, hca, rfl⟩ := convertCertificates_ok h5
  obtain ⟨remoteCN, hcn, hvc, rfl, rfl⟩ := convertVerification_ok h6
  obtain ⟨rfl, rfl⟩ := convertConnecting_ok h7
  obtain ⟨rfl, rfl⟩ := convertRemoteCertTls_ok h8
  obtain ⟨rfl, hcc, rfl⟩ := convertUser_ok h9
  obtain ⟨conns, connections, enabled, hconns, hcs, he, hcbc, rfl, rfl⟩ := convertConnections_ok h10
  obtain ⟨hsup, h11⟩ := checkIgnoreAndInvalidOptions_ok h11
  simp only at h5' hnoauth
  subst h5' hnoauth h11
  clear h h1 h2 h3 h4 h5 h6 h7 h8 h9 h10
  simp (disch := decide) only [Options.without_without, Options.find_without_of,
    Options.last_without_of, without_putRemoteTls, find_putRemoteTls, last_putRemoteTls,
    counted_without] at hdc hca hcn hvc hconns hcs he hcc hsup ⊢
  have hfind : ∀ option ∈ unsupportedOptions, p.options.find option = none := by
    intro option ho
    have := hsup option ho
    simp only [unsupportedOptions, List.mem_cons, List.not_mem_nil, or_false] at ho
    rcases ho with rfl | rfl <;>
      simpa (disch := decide) only [find_putRemoteTls, Options.find_without_of] using this
  have hcrl : Counted p.options "crl-verify" 1 2 := by
    rw [Counted, find_putRemoteTls (by decide), Options.find_without_of (by decide)] at hcc
    exact hcc
  exact ⟨⟨routes, mssFix, address, remoteCN, conns, connections, enabled⟩,
    ⟨hroutes, hrc, hdc, hca, hcn, hvc, hcrl, ⟨_, hconns⟩, hcs, he, hfind⟩, rfl⟩

/-- **What an import makes of the lines of a configuration.** -/
theorem importConfig_ok {order : HashOrder} {reader : Text} {np : VpnProfile}
    (h : importConfig order reader = .ok np) :
    ∃ (p : ConfigParser) (r : Readings), p.options = collect (optionLines reader) ∧
      r.Of order p.options ∧ np = r.profile order p := by
  rw [importConfig] at h
  split at h
  · exact nomatch h
  · rename_i p hparse
    obtain ⟨r, hr, rfl⟩ := convertProfile_ok h
    exact ⟨p, r, parseConfig_ok hparse, hr, rfl⟩

/-- What an import finds under a name are the argument lists given under it. -/
theorem getD_find_collect (name : String) (ds : List Args) :
    ((collect ds).find name).getD [] = given name ds := by
  rw [find_collect]
  split
  · rename_i h
    rw [h]
    rfl
  · rfl

theorem last_collect (name : String) (ds : List Args) :
    (collect ds).last name = (given name ds).getLast? := by
  rw [Options.last, find_collect]
  split
  · rename_i h
    rw [h]
    rfl
  · rfl

theorem isSome_find_collect (name : String) (ds : List Args) :
    ((collect ds).find name).isSome = !(given name ds).isEmpty := by
  rw [find_collect]
  split
  · rename_i h
    rw [h]
    rfl
  · rename_i h
    simp [h]

end PortVpn.Config
