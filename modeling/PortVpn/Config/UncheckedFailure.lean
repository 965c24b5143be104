import PortVpn.Config.RouteImport
import Mathlib.Tactic.MkIffOfInductiveProp

/-!
# Failures that are not checked

An import should return a profile or fail with a `ConfigParseError`. `import_endsChecked_iff` says
which configurations make it end in another way: with a netmask on which `CIDRIP` does not come to
an end, with an `ifconfig` whose netmask misses a part, or with a `connection` that is shorter than
the tag of an inline file, provided that no check on the way there fails first.
-/

set_option autoImplicit false

namespace PortVpn.Config

open PortVpn.Lib PortVpn.Net

/-- The ends of an import that its callers do not expect. -/
def Thrown.Unchecked : Thrown → Prop
  | .configParseError _ => False
  | .indexOutOfBounds | .endlessLoop => True

/-- A computation that ends so. -/
def Uncaught {α : Type} (x : Except Thrown α) : Prop := ∃ e, x = .error e ∧ e.Unchecked

/-- A computation that returns. -/
def Returns {α : Type} (x : Except Thrown α) : Prop := ∃ a, x = .ok a

/-! ## The condition -/

/-- The option lines under a name have the expected numbers of arguments, for the names in a
table. -/
def AllCounted (bounds : List (String × Nat × Nat)) (o : Options) : Prop :=
  ∀ bound ∈ bounds, Counted o bound.1 bound.2.1 bound.2.2

/-- Some element of a list is bad, and all before it are good. -/
def Reaches {α : Type} (good bad : α → Prop) : List α → Prop
  | [] => False
  | a :: l => bad a ∨ good a ∧ Reaches good bad l

/-- A netmask that can be read, and on which the loop of `CIDRIP` ends. -/
def Measured (netmask : Text) : Prop :=
  ∃ v, CIDRIP.getIntOf netmask = some v ∧ v ≠ -2 ^ 32

/-- A netmask with the value that keeps the loop of `CIDRIP` from ending. -/
def Endless (netmask : Text) : Prop := CIDRIP.getIntOf netmask = some (-2 ^ 32)

/-- A netmask of numbers that has fewer than four of them. -/
def MissesPart (netmask : Text) : Prop :=
  (split (· == '.') netmask).length < 4 ∧
    ∀ part ∈ (split (· == '.') netmask).zip [parseLong, parseInt, parseInt, parseInt],
      (part.2 part.1).isSome

/-- A protocol that `isUdpProto` knows. -/
def KnownProto (proto : Text) : Prop :=
  proto ∈ ["udp", "udp6", "tcp-client", "tcp", "tcp6"].map String.toList ∨
    "tcp6-client".toList.isSuffixOf proto

/-- The numbers of arguments that are checked before the routes are converted. -/
def boundsToRoutes : List (String × Nat × Nat) := [("secret", 1, 2), ("route", 1, 4)]

def routingBounds : List (String × Nat × Nat) :=
  boundsToRoutes ++ [("route-ipv6", 1, 4), ("route-nopull", 1, 1)]

def tlsAuthBounds : List (String × Nat × Nat) :=
  [("tls-auth", 1, 2), ("key-direction", 1, 1), ("redirect-gateway", 0, 5),
    ("redirect-private", 0, 5)]

def deviceBounds : List (String × Nat × Nat) :=
  [("dev", 1, 1), ("dev-type", 1, 1), ("mssfix", 0, 1), ("mode", 1, 1), ("dhcp-option", 2, 2),
    ("ifconfig", 2, 2)]

/-- The numbers of arguments that are checked before the `ifconfig` is converted. -/
def boundsToIfconfig : List (String × Nat × Nat) := routingBounds ++ tlsAuthBounds ++ deviceBounds

def cipherBounds : List (String × Nat × Nat) :=
  [("remote-random-hostname", 0, 0), ("float", 0, 0), ("comp-lzo", 0, 1), ("cipher", 1, 1),
    ("auth", 1, 1)]

def certificateBounds : List (String × Nat × Nat) :=
  [("ca", 1, 1), ("cert", 1, 1), ("key", 1, 1), ("pkcs12", 1, 1), ("cryptoapicert", 1, 1)]

def verificationBounds : List (String × Nat × Nat) :=
  [("compat-names", 1, 2), ("no-name-remapping", 1, 1), ("tls-remote", 1, 1),
    ("verify-x509-name", 1, 2), ("x509-username-field", 1, 1)]

def connectingBounds : List (String × Nat × Nat) :=
  [("verb", 1, 1), ("nobind", 0, 0), ("persist-tun", 0, 0), ("push-peer-info", 0, 0),
    ("connect-retry", 1, 2), ("connect-retry-max", 1, 1)]

def userBounds : List (String × Nat × Nat) :=
  [("remote-cert-tls", 1, 1), ("auth-user-pass", 0, 1), ("crl-verify", 1, 2)]

def connectionBounds : List (String × Nat × Nat) :=
  [("port", 1, 1), ("rport", 1, 1), ("proto", 1, 1), ("connect-timeout", 1, 1), ("remote", 1, 3)]

/-- The numbers of arguments that are checked before the connection blocks are read. -/
def boundsToBlocks : List (String × Nat × Nat) :=
  boundsToIfconfig ++ cipherBounds ++ certificateBounds ++ verificationBounds ++
    connectingBounds ++ userBounds ++ connectionBounds ++ [("connection", 1, 1)]

/-- The routes are reached, and one of them keeps its loop from ending. -/
@[mk_iff]
structure RouteHangs (o : Options) : Prop where
  counts : AllCounted boundsToRoutes o
  netmask : Reaches (fun route => Measured (routeMask route))
    (fun route => Endless (routeMask route)) ((o.find "route").getD [])

/-- The values that are read before the `ifconfig` have the expected form. -/
@[mk_iff]
structure DeviceValues (o : Options) : Prop where
  routes : ∀ route ∈ (o.find "route").getD [], Measured (routeMask route)
  device : checkDevice (o.last "dev") (o.last "dev-type") = .ok ()
  mssfix : ∀ args, o.last "mssfix" = some args → args.length ≥ 2 → (parseInt (args.arg 1)).isSome
  mode : ∀ args, o.last "mode" = some args → args.arg 1 = "p2p".toList

/-- The `ifconfig` is reached, and its netmask misses a part or keeps the loop from ending. -/
@[mk_iff]
structure IfconfigFails (o : Options) : Prop where
  counts : AllCounted boundsToIfconfig o
  values : DeviceValues o
  netmask : ∃ args, o.last "ifconfig" = some args ∧
    (MissesPart (args.arg 2) ∨ Endless (args.arg 2))

/-- The values of a connection have the expected form. -/
@[mk_iff]
structure ConnectionValues (o : Options) : Prop where
  proto : ∀ args, o.last "proto" = some args → KnownProto (args.arg 1)
  timeout : ∀ args, o.last "connect-timeout" = some args → (parseInt (args.arg 1)).isSome
  remotes : ∀ remote ∈ (o.find "remote").getD [], remote.length = 4 → KnownProto (remote.arg 3)

/-- A `connection` whose argument is a block with one remote. -/
def BlockAccepted (conn : Args) : Prop :=
  INLINE_TAG.length ≤ javaLength (conn.arg 1) ∧
    ∃ p remote, parseConfig (substring INLINE_TAG.length (conn.arg 1)) = .ok p ∧
      AllCounted connectionBounds p.options ∧ ConnectionValues p.options ∧
      p.options.find "remote" = some [remote]

/-- A `connection` whose argument is shorter than the tag of an inline file. -/
def BlockTooShort (conn : Args) : Prop := javaLength (conn.arg 1) < INLINE_TAG.length

/-- The connection blocks are reached, and so is one that is too short. -/
@[mk_iff]
structure BlockFails (o : Options) : Prop where
  counts : AllCounted boundsToBlocks o
  values : DeviceValues o
  ifconfig : ∀ args, o.last "ifconfig" = some args → Measured (args.arg 2)
  verify : ∀ args, o.last "verify-x509-name" = some args → args.length > 2 →
    args.arg 2 ∈ ["name", "subject", "name-prefix"].map String.toList
  connection : ConnectionValues o
  noRemote : (o.find "remote").getD [] = []
  blocks : Reaches BlockAccepted BlockTooShort ((o.find "connection").getD [])

theorem allCounted_nil {o : Options} : AllCounted [] o ↔ True := by
  simp [AllCounted]

theorem allCounted_cons {option : String} {minarg maxarg : Nat}
    {bounds : List (String × Nat × Nat)} {o : Options} :
    AllCounted ((option, minarg, maxarg) :: bounds) o ↔
      Counted o option minarg maxarg ∧ AllCounted bounds o := by
  simp [AllCounted]

theorem allCounted_append {bounds bounds' : List (String × Nat × Nat)} {o : Options} :
    AllCounted (bounds ++ bounds') o ↔ AllCounted bounds o ∧ AllCounted bounds' o := by
  simp [AllCounted, or_imp, forall_and]

theorem allCounted_without {bounds : List (String × Nat × Nat)} {o : Options} {names : List String}
    (h : ∀ bound ∈ bounds, bound.1 ∉ names) :
    AllCounted bounds (o.without names) ↔ AllCounted bounds o :=
  forall₂_congr fun bound hb => counted_without (h bound hb)

/-! ## Rules for a parser -/

section

variable {α β : Type} {o o₁ o₂ : Options} {C C₁ C₂ B B₁ B₂ : Prop}

theorem not_uncaught_ok (a : α) : ¬ Uncaught (.ok a) := by
  rintro ⟨e, he, -⟩
  exact nomatch he

theorem uncaught_error {e : Thrown} : Uncaught (.error e : Except Thrown α) ↔ e.Unchecked := by
  constructor
  · rintro ⟨e', he, hu⟩
    rwa [Except.error.inj he]
  · exact fun hu => ⟨e, rfl, hu⟩

theorem not_uncaught_fail (msg : Text) : ¬ Uncaught (fail msg : Except Thrown α) :=
  uncaught_error.not.2 id

theorem not_returns_error (e : Thrown) : ¬ Returns (.error e : Except Thrown α) := by
  rintro ⟨a, ha⟩
  exact nomatch ha

theorem uncaught_map {f : α → β} {x : Except Thrown α} : Uncaught (x.map f) ↔ Uncaught x := by
  cases x with
  | error e => simp [Uncaught, Except.map]
  | ok a => simp [Uncaught, Except.map]

theorem returns_map {f : α → β} {x : Except Thrown α} : Returns (x.map f) ↔ Returns x := by
  cases x with
  | error e => simp [Returns, Except.map]
  | ok a => simp [Returns, Except.map]

theorem uncaught_bind {x : Except Thrown α} {f : α → Except Thrown β} :
    Uncaught (x >>= f) ↔ Uncaught x ∨ ∃ a, x = .ok a ∧ Uncaught (f a) := by
  cases x with
  | error e => simp [Uncaught, bind, Except.bind]
  | ok a => simp [Uncaught, bind, Except.bind]

theorem returns_bind {x : Except Thrown α} {f : α → Except Thrown β} :
    Returns (x >>= f) ↔ ∃ a, x = .ok a ∧ Returns (f a) := by
  cases x with
  | error e => simp [Returns, bind, Except.bind]
  | ok a => simp [Returns, bind, Except.bind]

/-- A parser started with the options `o` returns exactly under `C`, and then leaves `o₁`; it ends
in an unchecked way exactly under `B`. -/
structure Parser.Ends (x : Parser α) (o o₁ : Options) (C B : Prop) : Prop where
  returns : Returns (x o) ↔ C
  leaves : ∀ a o', x o = .ok (a, o') → o' = o₁
  uncaught : Uncaught (x o) ↔ B

namespace Parser.Ends

/-- The rule of sequence for the unchecked ends. -/
theorem uncaught_bind {x : Parser α} {f : α → Parser β} {B : Prop} (hx : Ends x o o₁ C₁ B₁)
    (hf : ∀ a, x o = .ok (a, o₁) → (Uncaught (f a o₁) ↔ B)) :
    Uncaught ((x >>= f) o) ↔ B₁ ∨ C₁ ∧ B := by
  have hrun : (x >>= f) o = x o >>= fun s => f s.1 s.2 := rfl
  rw [hrun, Config.uncaught_bind, hx.uncaught, ← hx.returns]
  refine or_congr_right ⟨?_, ?_⟩
  · rintro ⟨⟨a, o'⟩, ha, hu⟩
    obtain rfl := hx.leaves a o' ha
    exact ⟨⟨_, ha⟩, (hf a ha).1 hu⟩
  · rintro ⟨⟨⟨a, o'⟩, ha⟩, hb⟩
    obtain rfl := hx.leaves a o' ha
    exact ⟨_, ha, (hf a ha).2 hb⟩

/-- What follows does not matter when it fails in a checked way only. -/
theorem uncaught_bind_left {x : Parser α} {f : α → Parser β} (hf : ∀ a o', ¬ Uncaught (f a o')) :
    Uncaught ((x >>= f) o) ↔ Uncaught (x o) := by
  have hrun : (x >>= f) o = x o >>= fun s => f s.1 s.2 := rfl
  rw [hrun, Config.uncaught_bind]
  refine or_iff_left ?_
  rintro ⟨⟨a, o'⟩, -, h⟩
  exact hf a o' h

/-- The rule of sequence. -/
theorem bind {x : Parser α} {f : α → Parser β} (hx : Ends x o o₁ C₁ B₁)
    (hf : ∀ a, x o = .ok (a, o₁) → Ends (f a) o₁ o₂ C₂ B₂) :
    Ends (x >>= f) o o₂ (C₁ ∧ C₂) (B₁ ∨ C₁ ∧ B₂) := by
  refine ⟨?_, ?_, hx.uncaught_bind fun a ha => (hf a ha).uncaught⟩
  · have hrun : (x >>= f) o = x o >>= fun s => f s.1 s.2 := rfl
    rw [hrun, returns_bind, ← hx.returns]
    constructor
    · rintro ⟨⟨a, o'⟩, ha, hr⟩
      obtain rfl := hx.leaves a o' ha
      exact ⟨⟨_, ha⟩, (hf a ha).returns.1 hr⟩
    · rintro ⟨⟨⟨a, o'⟩, ha⟩, hc⟩
      obtain rfl := hx.leaves a o' ha
      exact ⟨_, ha, (hf a ha).returns.2 hc⟩
  · intro b o' h
    obtain ⟨a, o'', ha, hb⟩ := bind_ok.1 h
    obtain rfl := hx.leaves a o'' ha
    exact (hf a ha).leaves b o' hb

theorem congr {x : Parser α} (h : Ends x o o₁ C B) (hC : C ↔ C₁) (hB : B ↔ B₁) :
    Ends x o o₁ C₁ B₁ :=
  ⟨h.returns.trans hC, h.leaves, h.uncaught.trans hB⟩

theorem leaving {x : Parser α} (h : Ends x o o₁ C B) (ho : o₁ = o₂) : Ends x o o₂ C B := ho ▸ h

theorem pure (a : α) : Ends (Pure.pure a) o o True False :=
  ⟨iff_of_true ⟨(a, o), rfl⟩ trivial, fun _ _ h => (pure_ok.1 h).2,
    iff_of_false (not_uncaught_ok (a, o)) id⟩

/-- A computation without the options, in the midst of a parser. -/
theorem lift {x : Except Thrown α} (hC : Returns x ↔ C) (hB : Uncaught x ↔ B) :
    Ends (liftM x) o o C B := by
  refine ⟨?_, fun _ _ h => (lift_ok.1 h).2, ?_⟩
  · rw [← hC]
    show Returns (x >>= fun a => Except.ok (a, o)) ↔ _
    cases x with
    | error e => simp [Returns, Bind.bind, Except.bind]
    | ok a => simp [Returns, Bind.bind, Except.bind]
  · rw [← hB]
    show Uncaught (x >>= fun a => Except.ok (a, o)) ↔ _
    cases x with
    | error e => simp [Uncaught, Bind.bind, Except.bind]
    | ok a => simp [Uncaught, Bind.bind, Except.bind]

theorem getAllOption (option : String) (minarg maxarg : Nat) :
    Ends (getAllOption option minarg maxarg) o (o.without [option])
      (Counted o option minarg maxarg) False := by
  refine ⟨?_, fun _ _ h => (getAllOption_ok.1 h).2.2, iff_of_false ?_ id⟩
  · constructor
    · rintro ⟨⟨v, o'⟩, h⟩
      exact (getAllOption_ok.1 h).1
    · exact fun h => ⟨_, getAllOption_ok.2 ⟨h, rfl, rfl⟩⟩
  · rw [Config.getAllOption]
    split
    · exact not_uncaught_ok _
    · split
      · exact not_uncaught_fail _
      · exact not_uncaught_ok _

theorem getOption (option : String) (minarg maxarg : Nat) :
    Ends (getOption option minarg maxarg) o (o.without [option])
      (Counted o option minarg maxarg) False :=
  ((getAllOption option minarg maxarg).bind fun _ _ => pure _).congr (by simp) (by simp)

/-- Reading an option and going on with its last arguments. -/
theorem getOption_bind {f : Option Args → Parser β} {option : String} {minarg maxarg : Nat}
    (h : Ends (f (o.last option)) (o.without [option]) o₂ C B) :
    Ends (Config.getOption option minarg maxarg >>= f) o o₂
      (Counted o option minarg maxarg ∧ C) (Counted o option minarg maxarg ∧ B) := by
  refine ((getOption option minarg maxarg).bind fun a ha => ?_).congr Iff.rfl
    (Iff.of_eq (false_or _))
  obtain ⟨-, rfl, -⟩ := getOption_ok.1 ha
  exact h

/-- Reading an option and going on with all its argument lists. -/
theorem getAllOption_bind {f : Option (List Args) → Parser β} {option : String}
    {minarg maxarg : Nat} (h : Ends (f (o.find option)) (o.without [option]) o₂ C B) :
    Ends (Config.getAllOption option minarg maxarg >>= f) o o₂
      (Counted o option minarg maxarg ∧ C) (Counted o option minarg maxarg ∧ B) := by
  refine ((getAllOption option minarg maxarg).bind fun a ha => ?_).congr Iff.rfl
    (Iff.of_eq (false_or _))
  obtain ⟨-, rfl, -⟩ := getAllOption_ok.1 ha
  exact h

/-- A check that fails in a checked way only. -/
theorem check_bind {x : Except Thrown α} {f : α → Parser β}
    (hx : (Returns x ↔ C₁) ∧ ¬ Uncaught x) (h : ∀ a, Ends (f a) o o₂ C B) :
    Ends (liftM x >>= f) o o₂ (C₁ ∧ C) (C₁ ∧ B) :=
  ((lift hx.1 (iff_of_false hx.2 id)).bind fun a _ => h a).congr Iff.rfl (Iff.of_eq (false_or _))

theorem get_bind {f : Options → Parser β} (h : Ends (f o) o o₂ C B) :
    Ends (get >>= f) o o₂ C B := ⟨h.returns, h.leaves, h.uncaught⟩

theorem modify_bind {f : Unit → Parser β} {g : Options → Options}
    (h : Ends (f ()) (g o) o₂ C B) : Ends (modify g >>= f) o o₂ C B :=
  ⟨h.returns, h.leaves, h.uncaught⟩

end Parser.Ends

/-- A loop whose rounds end in ways that depend on their element only. -/
theorem foldlM_ends {f : β → α → Except Thrown β} {good bad : α → Prop}
    (hg : ∀ b a, Returns (f b a) ↔ good a) (hb : ∀ b a, Uncaught (f b a) ↔ bad a) (l : List α)
    (b : β) :
    (Returns (l.foldlM f b) ↔ ∀ a ∈ l, good a) ∧ (Uncaught (l.foldlM f b) ↔ Reaches good bad l) := by
  induction l generalizing b with
  | nil => exact ⟨iff_of_true ⟨b, rfl⟩ (by simp), iff_of_false (not_uncaught_ok b) id⟩
  | cons a l ih =>
      rw [List.foldlM_cons, returns_bind, uncaught_bind, List.forall_mem_cons, Reaches, hb,
        ← hg b a]
      constructor
      · constructor
        · rintro ⟨b', hb', hr⟩
          exact ⟨⟨b', hb'⟩, (ih b').1.1 hr⟩
        · rintro ⟨⟨b', hb'⟩, hl⟩
          exact ⟨b', hb', (ih b').1.2 hl⟩
      · refine or_congr_right ⟨?_, ?_⟩
        · rintro ⟨b', hb', hr⟩
          exact ⟨⟨b', hb'⟩, (ih b').2.1 hr⟩
        · rintro ⟨⟨b', hb'⟩, hl⟩
          exact ⟨b', hb', (ih b').2.2 hl⟩

theorem mapM_ends {f : α → Except Thrown β} {good bad : α → Prop}
    (hg : ∀ a, Returns (f a) ↔ good a) (hb : ∀ a, Uncaught (f a) ↔ bad a) (l : List α) :
    (Returns (l.mapM f) ↔ ∀ a ∈ l, good a) ∧ (Uncaught (l.mapM f) ↔ Reaches good bad l) := by
  induction l with
  | nil => exact ⟨iff_of_true ⟨[], rfl⟩ (by simp), iff_of_false (not_uncaught_ok []) id⟩
  | cons a l ih =>
      rw [mapM_cons, returns_bind, uncaught_bind, List.forall_mem_cons, Reaches, hb, ← hg a]
      simp only [returns_map, uncaught_map, ih.1, ih.2]
      exact ⟨exists_and_right, or_congr_right exists_and_right⟩

theorem reaches_false (good : α → Prop) (l : List α) :
    Reaches good (fun _ => False) l ↔ False := by
  induction l with
  | nil => exact Iff.rfl
  | cons a l ih => simp [Reaches, ih]

end

/-! ## The checks of values -/

/-- A computation that goes on with the length of a netmask. -/
theorem netmask_ends {β : Type} (ip netmask : Text) (e : Thrown) (f : CIDRIP → β) :
    (Returns ((CIDRIP.ofMask ip netmask).elim (.error (netmaskFailure netmask e))
        fun cidr => .ok (f cidr)) ↔ Measured netmask) ∧
      (Uncaught ((CIDRIP.ofMask ip netmask).elim (.error (netmaskFailure netmask e))
          fun cidr => .ok (f cidr)) ↔
        Endless netmask ∨ CIDRIP.getIntOf netmask = none ∧ e.Unchecked) := by
  cases hv : CIDRIP.getIntOf netmask with
  | none =>
      have hnone : CIDRIP.ofMask ip netmask = none := by
        rw [CIDRIP.ofMask, hv]
        rfl
      rw [hnone, Option.elim_none, netmaskFailure, hv, if_neg (by simp), Measured, Endless, hv]
      exact ⟨iff_of_false (not_returns_error e) (by simp), by simp [Uncaught]⟩
  | some v =>
      by_cases hend : v = -2 ^ 32
      · subst hend
        rw [CIDRIP.ofMask_endless ip hv, Option.elim_none, netmaskFailure, hv, if_pos rfl, Measured,
          Endless, hv]
        exact ⟨iff_of_false (not_returns_error _) (by simp),
          iff_of_true ⟨_, rfl, trivial⟩ (.inl rfl)⟩
      · obtain ⟨c, hc⟩ := Option.isSome_iff_exists.1 (CIDRIP.ofMask_isSome hv hend ip)
        rw [hc, Option.elim_some, Measured, Endless, hv]
        exact ⟨iff_of_true ⟨f c, rfl⟩ ⟨v, rfl, hend⟩,
          iff_of_false (not_uncaught_ok (f c)) (by simpa using hend)⟩

theorem convertRoute_ends (acc : Text × Text) (route : Args) :
    (Returns (convertRoute acc route) ↔ Measured (routeMask route)) ∧
      (Uncaught (convertRoute acc route) ↔ Endless (routeMask route)) := by
  have hrun : ∃ (e : ConfigParseError) (f : CIDRIP → Text × Text), convertRoute acc route =
      (CIDRIP.ofMask (route.arg 1) (routeMask route)).elim
        (.error (netmaskFailure (routeMask route) (.configParseError e)))
        fun cidr => .ok (f cidr) := by
    unfold convertRoute routeMask
    simp only
    generalize (if route.length ≥ 3 then route.arg 2 else "255.255.255.255".toList) = netmask
    cases CIDRIP.ofMask (route.arg 1) netmask with
    | none => exact ⟨_, fun _ => acc, rfl⟩
    | some cidr => exact ⟨⟨[]⟩, fun _ => _, rfl⟩
  obtain ⟨e, f, hrun⟩ := hrun
  have h := netmask_ends (route.arg 1) (routeMask route) (.configParseError e) f
  rw [hrun]
  exact ⟨h.1, h.2.trans (by simp [Thrown.Unchecked])⟩

theorem convertRoutes_ends (np : VpnProfile) (routes : Option (List Args)) :
    (Returns (convertRoutes np routes) ↔
        ∀ route ∈ routes.getD [], Measured (routeMask route)) ∧
      (Uncaught (convertRoutes np routes) ↔ Reaches (fun route => Measured (routeMask route))
        (fun route => Endless (routeMask route)) (routes.getD [])) := by
  cases routes with
  | none => exact ⟨iff_of_true ⟨_, rfl⟩ (by simp), iff_of_false (not_uncaught_ok _) id⟩
  | some routes =>
      have h := foldlM_ends (fun acc route => (convertRoute_ends acc route).1)
        (fun acc route => (convertRoute_ends acc route).2) routes ([], [])
      exact ⟨returns_map.trans h.1, uncaught_map.trans h.2⟩

/-- An address without an unreadable part that cannot be read misses a part. -/
theorem ifconfigError_unchecked (netmask : Text) :
    CIDRIP.getIntOf netmask = none ∧ (ifconfigError netmask).Unchecked ↔ MissesPart netmask := by
  rw [ifconfigError, MissesPart, CIDRIP.getIntOf]
  generalize split (· == '.') netmask = ipt
  rcases ipt with - | ⟨a, - | ⟨b, - | ⟨c, - | ⟨d, ipt⟩⟩⟩⟩
  · simp [Thrown.Unchecked]
  · cases ha : parseLong a <;> simp [ha, Thrown.Unchecked]
  · cases ha : parseLong a <;> cases hb : parseInt b <;> simp [ha, hb, Thrown.Unchecked]
  · cases ha : parseLong a <;> cases hb : parseInt b <;> cases hc : parseInt c <;>
      simp [ha, hb, hc, Thrown.Unchecked]
  · cases ha : parseLong a <;> cases hb : parseInt b <;> cases hc : parseInt c <;>
      cases hd : parseInt d <;> simp [ha, hb, hc, hd, Thrown.Unchecked]

theorem convertIfconfig_ends (np : VpnProfile) (ifconfig : Option Args) :
    (Returns (convertIfconfig np ifconfig) ↔
        ∀ args, ifconfig = some args → Measured (args.arg 2)) ∧
      (Uncaught (convertIfconfig np ifconfig) ↔
        ∃ args, ifconfig = some args ∧ (MissesPart (args.arg 2) ∨ Endless (args.arg 2))) := by
  cases ifconfig with
  | none => exact ⟨iff_of_true ⟨_, rfl⟩ (by simp), iff_of_false (not_uncaught_ok _) (by simp)⟩
  | some args =>
      have hrun : convertIfconfig np (some args) =
          (CIDRIP.ofMask (args.arg 1) (args.arg 2)).elim
            (.error (netmaskFailure (args.arg 2) (ifconfigError (args.arg 2))))
            fun cidr => .ok (some cidr.toText) := by
        unfold convertIfconfig
        simp only
        cases CIDRIP.ofMask (args.arg 1) (args.arg 2) <;> rfl
      obtain ⟨h₁, h₂⟩ := netmask_ends (args.arg 1) (args.arg 2) (ifconfigError (args.arg 2))
        fun cidr => some cidr.toText
      rw [ifconfigError_unchecked, or_comm] at h₂
      rw [hrun]
      exact ⟨h₁.trans (by simp), h₂.trans (by simp)⟩

theorem checkDevice_ends (dev devtype : Option Args) :
    (Returns (checkDevice dev devtype) ↔ checkDevice dev devtype = .ok ()) ∧
      ¬ Uncaught (checkDevice dev devtype) := by
  refine ⟨⟨fun ⟨_, h⟩ => h, fun h => ⟨(), h⟩⟩, ?_⟩
  rw [checkDevice]
  split
  · exact not_uncaught_ok ()
  · exact not_uncaught_fail _

theorem convertMssfix_ends (np : VpnProfile) (mssfix : Option Args) :
    (Returns (convertMssfix np mssfix) ↔
        ∀ args, mssfix = some args → args.length ≥ 2 → (parseInt (args.arg 1)).isSome) ∧
      ¬ Uncaught (convertMssfix np mssfix) := by
  cases mssfix with
  | none => exact ⟨iff_of_true ⟨_, rfl⟩ (by simp), not_uncaught_ok _⟩
  | some args =>
      simp only [convertMssfix, Option.some.injEq, forall_eq']
      split
      · rename_i hlen
        cases parseInt (args.arg 1) with
        | none => exact ⟨iff_of_false (not_returns_error _) (by simp [hlen]), not_uncaught_fail _⟩
        | some n => exact ⟨iff_of_true ⟨n, rfl⟩ (by simp), not_uncaught_ok n⟩
      · rename_i hlen
        exact ⟨iff_of_true ⟨_, rfl⟩ fun h => absurd h hlen, not_uncaught_ok _⟩

theorem checkMode_ends (mode : Option Args) :
    (Returns (checkMode mode) ↔ ∀ args, mode = some args → args.arg 1 = "p2p".toList) ∧
      ¬ Uncaught (checkMode mode) := by
  cases mode with
  | none => exact ⟨iff_of_true ⟨_, rfl⟩ (by simp), not_uncaught_ok _⟩
  | some args =>
      simp only [checkMode, Option.any_some, decide_eq_true_eq, Option.some.injEq, forall_eq']
      split
      · rename_i h
        exact ⟨iff_of_false (not_returns_error _) h, not_uncaught_fail _⟩
      · rename_i h
        exact ⟨iff_of_true ⟨_, rfl⟩ (not_not.1 h), not_uncaught_ok _⟩

theorem convertVerifyX509Name_ends (fields : Text × X509AuthType) (verifyx509name : Option Args) :
    (Returns (convertVerifyX509Name fields verifyx509name) ↔
        ∀ args, verifyx509name = some args → args.length > 2 →
          args.arg 2 ∈ ["name", "subject", "name-prefix"].map String.toList) ∧
      ¬ Uncaught (convertVerifyX509Name fields verifyx509name) := by
  cases verifyx509name with
  | none => exact ⟨iff_of_true ⟨_, rfl⟩ (by simp), not_uncaught_ok _⟩
  | some args =>
      simp only [convertVerifyX509Name, returns_map, uncaught_map, verifyX509Type,
        Option.some.injEq, forall_eq', List.map_cons, List.map_nil, List.mem_cons,
        List.not_mem_nil, or_false]
      split
      · rename_i hlen
        split
        · rename_i h
          exact ⟨iff_of_true ⟨_, rfl⟩ fun _ => .inl h, not_uncaught_ok _⟩
        · rename_i h₁
          split
          · rename_i h
            exact ⟨iff_of_true ⟨_, rfl⟩ fun _ => .inr (.inl h), not_uncaught_ok _⟩
          · rename_i h₂
            split
            · rename_i h
              exact ⟨iff_of_true ⟨_, rfl⟩ fun _ => .inr (.inr h), not_uncaught_ok _⟩
            · rename_i h₃
              refine ⟨iff_of_false (not_returns_error _) fun h => ?_, not_uncaught_fail _⟩
              rcases h hlen with h | h | h
              · exact h₁ h
              · exact h₂ h
              · exact h₃ h
      · rename_i hlen
        exact ⟨iff_of_true ⟨_, rfl⟩ fun h => absurd h hlen, not_uncaught_ok _⟩

/-! ## Connections -/

theorem isUdpProto_ends (proto : Text) :
    (Returns (isUdpProto proto) ↔ KnownProto proto) ∧ ¬ Uncaught (isUdpProto proto) := by
  rw [isUdpProto, KnownProto]
  simp only [List.map_cons, List.map_nil, List.mem_cons, List.not_mem_nil, or_false]
  split
  · rename_i h
    exact ⟨iff_of_true ⟨true, rfl⟩ (by tauto), not_uncaught_ok _⟩
  · split
    · rename_i h
      exact ⟨iff_of_true ⟨false, rfl⟩ (by tauto), not_uncaught_ok _⟩
    · exact ⟨iff_of_false (not_returns_error _) (by tauto), not_uncaught_fail _⟩

theorem convertProto_ends (conn : Connection) (proto : Option Args) :
    (Returns (convertProto conn proto) ↔ ∀ args, proto = some args → KnownProto (args.arg 1)) ∧
      ¬ Uncaught (convertProto conn proto) := by
  cases proto with
  | none => exact ⟨iff_of_true ⟨_, rfl⟩ (by simp), not_uncaught_ok _⟩
  | some args =>
      have h := isUdpProto_ends (args.arg 1)
      exact ⟨h.1.trans (by simp), h.2⟩

theorem convertConnectTimeout_ends (conn : Connection) (connectTimeout : Option Args) :
    (Returns (convertConnectTimeout conn connectTimeout) ↔
        ∀ args, connectTimeout = some args → (parseInt (args.arg 1)).isSome) ∧
      ¬ Uncaught (convertConnectTimeout conn connectTimeout) := by
  cases connectTimeout with
  | none => exact ⟨iff_of_true ⟨_, rfl⟩ (by simp), not_uncaught_ok _⟩
  | some args =>
      simp only [convertConnectTimeout, Option.some.injEq, forall_eq']
      cases parseInt (args.arg 1) with
      | none => exact ⟨iff_of_false (not_returns_error _) (by simp), not_uncaught_fail _⟩
      | some n => exact ⟨iff_of_true ⟨n, rfl⟩ rfl, not_uncaught_ok n⟩

theorem remoteConnection_ends (conn : Connection) (remote : Args) :
    (Returns (remoteConnection conn remote) ↔ (remote.length = 4 → KnownProto (remote.arg 3))) ∧
      (Uncaught (remoteConnection conn remote) ↔ False) := by
  rw [remoteConnection]
  simp only
  split
  · rename_i hlen
    have h := isUdpProto_ends (remote.arg 3)
    rw [returns_bind, uncaught_bind, ← h.1]
    refine ⟨⟨fun ⟨a, ha, _⟩ _ => ⟨a, ha⟩, fun hr => ?_⟩, iff_of_false ?_ id⟩
    · exact (hr hlen).imp fun a ha => ⟨ha, _, rfl⟩
    · rintro (hu | ⟨a, -, hu⟩)
      · exact h.2 hu
      · exact not_uncaught_ok _ hu
  · rename_i hlen
    exact ⟨iff_of_true ⟨_, rfl⟩ fun h => absurd h hlen, iff_of_false (not_uncaught_ok _) id⟩

theorem remotes_ends (conn : Connection) (remotes : List Args) :
    (Returns (remotes.mapM (remoteConnection conn)) ↔
        ∀ remote ∈ remotes, remote.length = 4 → KnownProto (remote.arg 3)) ∧
      ¬ Uncaught (remotes.mapM (remoteConnection conn)) := by
  have h := mapM_ends (fun remote => (remoteConnection_ends conn remote).1)
    (fun remote => (remoteConnection_ends conn remote).2) remotes
  exact ⟨h.1, h.2.trans (reaches_false _ _) |>.1⟩

theorem not_uncaught_checkinlinefile (args : Args) (br : List Text) :
    ¬ Uncaught (checkinlinefile args br) := by
  rw [checkinlinefile]
  split
  · exact not_uncaught_ok _
  · split
    · exact not_uncaught_fail _
    · exact not_uncaught_ok _

theorem not_uncaught_readEntries (n : Nat) (lines : List Text) :
    ¬ Uncaught (readEntries n lines) := by
  induction n generalizing lines with
  | zero => cases lines <;> exact not_uncaught_ok _
  | succ n ih =>
      cases lines with
      | nil => exact not_uncaught_ok _
      | cons line br =>
          rw [readEntries]
          split
          · rw [uncaught_map]
            exact ih br
          · split
            · exact uncaught_error.not.2 id
            · exact ih br
            · rename_i arg0 rest hline
              have hc := not_uncaught_checkinlinefile (stripDashes (arg0 :: rest)) br
              split
              · rename_i e he
                rw [he, uncaught_error] at hc
                exact uncaught_error.not.2 hc
              · rw [uncaught_map]
                exact ih _

/-- The reader of lines fails in a checked way only. -/
theorem not_uncaught_parseConfig (reader : Text) : ¬ Uncaught (parseConfig reader) := by
  rw [parseConfig, entriesOf]
  rw [uncaught_map]
  split
  · exact not_uncaught_ok _
  · rename_i line br _
    have hf : ¬ Uncaught (firstLine line) := by
      rw [firstLine]
      split
      · exact not_uncaught_fail _
      · exact not_uncaught_ok _
    split
    · rename_i e he
      rw [he, uncaught_error] at hf
      exact uncaught_error.not.2 hf
    · exact not_uncaught_readEntries _ _

theorem parseConnectionOptions_ends (order : HashOrder) (connDefault : Option Connection)
    (o : Options) :
    (parseConnectionOptions order connDefault).Ends o (o.without connectionOptions)
      (AllCounted connectionBounds o ∧ ConnectionValues o) False := by
  refine Parser.Ends.congr (Parser.Ends.leaving (Parser.Ends.getOption_bind
    (Parser.Ends.getOption_bind (Parser.Ends.getOption_bind
      (Parser.Ends.check_bind (convertProto_ends _ _) fun useUdp =>
        Parser.Ends.getOption_bind (Parser.Ends.check_bind (convertConnectTimeout_ends _ _)
          fun timeout => Parser.Ends.getAllOption_bind (Parser.Ends.get_bind
            (Parser.Ends.check_bind (remotes_ends _ _) fun connections =>
              Parser.Ends.pure _))))))) ?_) ?_ ?_
  · simp only [Options.without_without]
    rfl
  · simp (disch := decide) only [Options.without_without, Options.last_without_of,
      Options.find_without_of, counted_without, connectionBounds, allCounted_cons, allCounted_nil,
      connectionValues_iff, and_true]
    tauto
  · simp only [and_false]

theorem parseConnection_uncaught (order : HashOrder) (connection : Text)
    (defaultValues : Connection) :
    Uncaught (parseConnection order connection defaultValues) ↔
      javaLength connection < INLINE_TAG.length := by
  rw [parseConnection]
  split
  · rename_i hshort
    exact iff_of_true ⟨_, rfl, trivial⟩ hshort
  · rename_i hlen
    refine iff_of_false ?_ hlen
    rw [uncaught_bind]
    rintro (h | ⟨p, -, h⟩)
    · exact not_uncaught_parseConfig _ h
    · rw [uncaught_bind] at h
      rcases h with h | ⟨r, -, h⟩
      · exact (parseConnectionOptions_ends order (some defaultValues) p.options).uncaught.1 h
      · exact not_uncaught_ok _ h

/-- The connections of a block are as many as its remotes. -/
theorem length_of_parseConnectionOptions {order : HashOrder} {connDefault : Option Connection}
    {o o' : Options} {r : Connection × List Connection}
    (h : parseConnectionOptions order connDefault o = .ok (r, o')) :
    r.2.length = ((o.find "remote").getD []).length := by
  obtain ⟨_, _, -, -, -, hm, -, -⟩ := parseConnectionOptions_ok h
  exact (mapM_ok hm).length_eq.symm

theorem getD_length_eq_one {remotes : Option (List Args)} :
    (remotes.getD []).length = 1 ↔ ∃ remote, remotes = some [remote] := by
  cases remotes with
  | none => simp
  | some l => simp [List.length_eq_one_iff]

/-- A block is accepted, or ends in an unchecked way, whatever the defaults are. -/
theorem blockConnection_ends (order : HashOrder) (defaultValues : Connection) (conn : Args) :
    (Returns (blockConnection order defaultValues conn) ↔ BlockAccepted conn) ∧
      (Uncaught (blockConnection order defaultValues conn) ↔ BlockTooShort conn) := by
  rw [blockConnection]
  rw [returns_bind, uncaught_bind, parseConnection_uncaught]
  refine ⟨⟨?_, ?_⟩, ⟨?_, .inl⟩⟩
  · rintro ⟨⟨c, conns⟩, hr, hret⟩
    obtain ⟨hlen, p, o', hp, hc⟩ := (parseConnection_ok order _ _ _).1 hr
    obtain ⟨hcounts, hvalues⟩ :=
      (parseConnectionOptions_ends order (some defaultValues) p.options).returns.1 ⟨_, hc⟩
    have hone : conns.length = 1 := by
      rcases conns with - | ⟨a, - | ⟨b, conns⟩⟩
      · exact absurd hret (not_returns_error _)
      · rfl
      · exact absurd hret (not_returns_error _)
    rw [length_of_parseConnectionOptions hc, getD_length_eq_one] at hone
    obtain ⟨remote, hone⟩ := hone
    exact ⟨hlen, p, remote, hp, hcounts, hvalues, hone⟩
  · rintro ⟨hlen, p, remote, hp, hcounts, hvalues, hone⟩
    obtain ⟨⟨⟨c, conns⟩, o'⟩, hc⟩ :=
      (parseConnectionOptions_ends order (some defaultValues) p.options).returns.2
        ⟨hcounts, hvalues⟩
    have hlength := length_of_parseConnectionOptions hc
    rw [hone] at hlength
    obtain ⟨connection, rfl⟩ := List.length_eq_one_iff.1 hlength
    exact ⟨_, (parseConnection_ok order _ _ _).2 ⟨hlen, p, o', hp, hc⟩, connection, rfl⟩
  · rintro (h | ⟨⟨c, conns⟩, -, h⟩)
    · exact h
    · rcases conns with - | ⟨a, - | ⟨b, conns⟩⟩
      · exact absurd h (not_uncaught_fail _)
      · exact absurd h (not_uncaught_ok _)
      · exact absurd h (not_uncaught_fail _)

theorem connectionsOf_ends (order : HashOrder) (conns : Connection × List Connection)
    (connectionBlocks : Option (List Args)) :
    Uncaught (connectionsOf order conns connectionBlocks) ↔
      conns.2 = [] ∧ Reaches BlockAccepted BlockTooShort (connectionBlocks.getD []) := by
  cases connectionBlocks with
  | none => exact iff_of_false (not_uncaught_ok _) (by simp [Reaches])
  | some blocks =>
      unfold connectionsOf
      simp only
      split
      · rename_i h
        exact iff_of_false (not_uncaught_fail _) fun hn => by simp [hn.1] at h
      · rename_i h
        have hnil : conns.2 = [] := by simpa using h
        exact (mapM_ends (fun conn => (blockConnection_ends order conns.1 conn).1)
          (fun conn => (blockConnection_ends order conns.1 conn).2) blocks).2.trans
            (by simp [hnil])

theorem not_uncaught_convertProtoForce (connections : List Connection) (protoforce : Option Args) :
    ¬ Uncaught (convertProtoForce connections protoforce) := by
  cases protoforce with
  | none => exact not_uncaught_ok _
  | some protoforce =>
      simp only [convertProtoForce]
      split
      · exact not_uncaught_ok _
      · split
        · exact not_uncaught_ok _
        · exact not_uncaught_fail _

/-! ## The groups -/

section

variable (np : VpnProfile) (o : Options)

theorem takePull_ends : takePull.Ends o (o.without ["pull", "client"]) True False := by
  have hok : ∃ pull o', takePull o = .ok (pull, o') := by
    rw [takePull]
    split <;> exact ⟨_, _, rfl⟩
  obtain ⟨pull, o', hok⟩ := hok
  refine ⟨iff_of_true ⟨_, hok⟩ trivial, fun _ _ h => (takePull_ok h).2, iff_of_false ?_ id⟩
  rw [hok]
  exact not_uncaught_ok _

theorem convertRouting_ends :
    (convertRouting np).Ends o
      (o.without ["pull", "client", "secret", "route", "route-ipv6", "route-nopull"])
      (AllCounted routingBounds o ∧
        ∀ route ∈ (o.find "route").getD [], Measured (routeMask route))
      (RouteHangs o) := by
  refine .congr (.leaving (.bind (takePull_ends o) fun _ _ => .getOption_bind (.getAllOption_bind
    (.bind (.lift (convertRoutes_ends _ _).1 (convertRoutes_ends _ _).2) fun _ _ =>
      .getAllOption_bind (.getOption_bind (.pure _))))) ?_) ?_ ?_
  · simp only [Options.without_without]
    rfl
  · simp (disch := decide) only [Options.without_without, Options.find_without_of,
      counted_without, routingBounds, boundsToRoutes, List.cons_append, List.nil_append,
      allCounted_cons, allCounted_nil, true_and, and_true]
    tauto
  · simp (disch := decide) only [Options.without_without, Options.find_without_of,
      counted_without, boundsToRoutes, allCounted_cons, allCounted_nil, routeHangs_iff, true_and,
      and_true, and_false, or_false, false_or, and_assoc]

theorem convertTlsAuth_ends :
    (convertTlsAuth np).Ends o
      (o.without ["tls-auth", "key-direction", "redirect-gateway", "redirect-private"])
      (AllCounted tlsAuthBounds o) False := by
  refine .congr (.leaving (.getAllOption_bind (.getOption_bind (.getAllOption_bind
    (.getAllOption_bind (.pure _))))) ?_) ?_ ?_
  · simp only [Options.without_without]
    rfl
  · simp (disch := decide) only [Options.without_without, counted_without, tlsAuthBounds,
      allCounted_cons, allCounted_nil]
  · simp only [and_false]

theorem convertDevice_ends :
    (convertDevice np).Ends o
      (o.without ["dev", "dev-type", "mssfix", "mode", "dhcp-option", "ifconfig"])
      (AllCounted deviceBounds o ∧
        (checkDevice (o.last "dev") (o.last "dev-type") = .ok () ∧
          (∀ args, o.last "mssfix" = some args → args.length ≥ 2 →
            (parseInt (args.arg 1)).isSome) ∧
          ∀ args, o.last "mode" = some args → args.arg 1 = "p2p".toList) ∧
        ∀ args, o.last "ifconfig" = some args → Measured (args.arg 2))
      (AllCounted deviceBounds o ∧
        (checkDevice (o.last "dev") (o.last "dev-type") = .ok () ∧
          (∀ args, o.last "mssfix" = some args → args.length ≥ 2 →
            (parseInt (args.arg 1)).isSome) ∧
          ∀ args, o.last "mode" = some args → args.arg 1 = "p2p".toList) ∧
        ∃ args, o.last "ifconfig" = some args ∧
          (MissesPart (args.arg 2) ∨ Endless (args.arg 2))) := by
  refine .congr (.leaving (.getOption_bind (.getOption_bind (.check_bind (checkDevice_ends _ _)
    fun _ => .getOption_bind (.check_bind (convertMssfix_ends _ _) fun _ => .getOption_bind
      (.check_bind (checkMode_ends _) fun _ => .getAllOption_bind (.getOption_bind (.bind
        (.lift (convertIfconfig_ends _ _).1 (convertIfconfig_ends _ _).2) fun _ _ =>
          .pure _))))))) ?_) ?_ ?_
  · simp only [Options.without_without]
    rfl
  all_goals
    simp (disch := decide) only [Options.without_without, Options.last_without_of,
      counted_without, deviceBounds, allCounted_cons, allCounted_nil, and_true, and_false,
      or_false]
    constructor
    · rintro ⟨hdev, htype, hdevice, hfix, hmssfix, hcount, hmode, hdhcp, hif, hmask⟩
      exact ⟨⟨hdev, htype, hfix, hcount, hdhcp, hif⟩, ⟨hdevice, hmssfix, hmode⟩, hmask⟩
    · rintro ⟨⟨hdev, htype, hfix, hcount, hdhcp, hif⟩, ⟨hdevice, hmssfix, hmode⟩, hmask⟩
      exact ⟨hdev, htype, hdevice, hfix, hmssfix, hcount, hmode, hdhcp, hif, hmask⟩

theorem convertCiphers_ends :
    (convertCiphers np).Ends o
      (o.without ["remote-random-hostname", "float", "comp-lzo", "cipher", "auth"])
      (AllCounted cipherBounds o) False := by
  refine .congr (.leaving (.getOption_bind (.getOption_bind (.getOption_bind (.getOption_bind
    (.getOption_bind (.pure _)))))) ?_) ?_ ?_
  · simp only [Options.without_without]
    rfl
  · simp (disch := decide) only [Options.without_without, counted_without, cipherBounds,
      allCounted_cons, allCounted_nil]
  · simp only [and_false]

theorem convertCertificates_ends (noauthtypeset : Bool) :
    (convertCertificates np noauthtypeset).Ends o
      (o.without ["ca", "cert", "key", "pkcs12", "cryptoapicert"])
      (AllCounted certificateBounds o) False := by
  refine .congr (.leaving (.getOption_bind (.getOption_bind (.getOption_bind (.getOption_bind
    (.getOption_bind (.pure _)))))) ?_) ?_ ?_
  · simp only [Options.without_without]
    rfl
  · simp (disch := decide) only [Options.without_without, counted_without, certificateBounds,
      allCounted_cons, allCounted_nil]
  · simp only [and_false]

theorem convertVerification_ends :
    (convertVerification np).Ends o
      (o.without ["compat-names", "no-name-remapping", "tls-remote", "verify-x509-name",
        "x509-username-field"])
      (AllCounted verificationBounds o ∧
        ∀ args, o.last "verify-x509-name" = some args → args.length > 2 →
          args.arg 2 ∈ ["name", "subject", "name-prefix"].map String.toList) False := by
  refine .congr (.leaving (.getOption_bind (.getOption_bind (.getOption_bind (.getOption_bind
    (.check_bind (convertVerifyX509Name_ends _ _) fun _ => .getOption_bind (.pure _)))))) ?_) ?_ ?_
  · simp only [Options.without_without]
    rfl
  · simp (disch := decide) only [Options.without_without, Options.last_without_of,
      counted_without, verificationBounds, allCounted_cons, allCounted_nil, and_true]
    tauto
  · simp only [and_false]

theorem convertConnecting_ends :
    (convertConnecting np).Ends o
      (o.without ["verb", "nobind", "persist-tun", "push-peer-info", "connect-retry",
        "connect-retry-max"])
      (AllCounted connectingBounds o) False := by
  refine .congr (.leaving (.getOption_bind (.getOption_bind (.getOption_bind (.getOption_bind
    (.getOption_bind (.getOption_bind (.pure _))))))) ?_) ?_ ?_
  · simp only [Options.without_without]
    rfl
  · simp (disch := decide) only [Options.without_without, counted_without, connectingBounds,
      allCounted_cons, allCounted_nil]
  · simp only [and_false]

theorem convertRemoteCertTls_ends :
    (convertRemoteCertTls np).Ends o
      (putRemoteTls (o.find "remote-cert-tls") (o.without ["remote-cert-tls"]))
      (Counted o "remote-cert-tls" 1 1) False := by
  refine .congr (.getAllOption_bind (.modify_bind (.pure _))) ?_ ?_
  · simp only [and_true]
  · simp only [and_false]

theorem convertUser_ends (noauthtypeset : Bool) :
    (convertUser np noauthtypeset).Ends o (o.without ["auth-user-pass", "crl-verify"])
      (Counted o "auth-user-pass" 0 1 ∧ Counted o "crl-verify" 1 2) False := by
  refine .congr (.leaving (.getOption_bind (.getOption_bind (.pure _))) ?_) ?_ ?_
  · simp only [Options.without_without]
    rfl
  · simp (disch := decide) only [counted_without, and_true]
  · simp only [and_false]

theorem convertConnections_uncaught (order : HashOrder) :
    Uncaught (convertConnections order np o) ↔
      (AllCounted connectionBounds o ∧ ConnectionValues o) ∧ Counted o "connection" 1 1 ∧
        (o.find "remote").getD [] = [] ∧
        Reaches BlockAccepted BlockTooShort ((o.find "connection").getD []) := by
  have htail : ∀ (connections : List Connection) (o : Options), ¬ Uncaught ((do
      let remoteRandom ← getOption "remote-random" 0 0
      let protoforce ← getOption "proto-force" 1 1
      let connections ← convertProtoForce connections protoforce
      return setConnections connections remoteRandom np : Parser VpnProfile) o) := by
    intro connections o h
    have h' := (Parser.Ends.getOption_bind (.getOption_bind (.bind (.lift Iff.rfl
      (iff_of_false (not_uncaught_convertProtoForce _ _) id)) fun _ _ => .pure _))).uncaught.1 h
    simp only [and_false, or_false] at h'
  have hblocks : ∀ conns o', parseConnectionOptions order none o = .ok (conns, o') →
      (conns.2 = [] ↔ (o.find "remote").getD [] = []) := by
    intro conns o' h
    rw [← List.length_eq_zero_iff, length_of_parseConnectionOptions h, List.length_eq_zero_iff]
  refine ((parseConnectionOptions_ends order none o).uncaught_bind
    (B := Counted o "connection" 1 1 ∧ (o.find "remote").getD [] = [] ∧
      Reaches BlockAccepted BlockTooShort ((o.find "connection").getD [])) fun conns hconns => ?_).trans
      (Iff.of_eq (false_or _))
  refine ((Parser.Ends.getAllOption "connection" 1 1).uncaught_bind
    (B := (o.find "remote").getD [] = [] ∧
      Reaches BlockAccepted BlockTooShort ((o.find "connection").getD [])) fun blocks hall => ?_).trans
      (by rw [false_or, counted_without (by decide)])
  obtain ⟨-, rfl, -⟩ := getAllOption_ok.1 hall
  rw [Parser.Ends.uncaught_bind_left htail,
    (Parser.Ends.lift Iff.rfl (connectionsOf_ends order conns _)).uncaught, hblocks conns _ hconns,
    Options.find_without_of (by decide)]

theorem not_uncaught_checkIgnoreAndInvalidOptions (order : HashOrder) :
    ¬ Uncaught (checkIgnoreAndInvalidOptions order np o) := by
  rw [checkIgnoreAndInvalidOptions]
  split
  · exact not_uncaught_fail _
  · exact not_uncaught_ok _

end

/-! ## The whole import -/

theorem counted_putRemoteTls {option : String} {minarg maxarg : Nat}
    {remotetls : Option (List Args)} {o : Options} (h : "remotetls" ≠ option) :
    Counted (putRemoteTls remotetls o) option minarg maxarg ↔ Counted o option minarg maxarg := by
  rw [Counted, Counted, find_putRemoteTls h]

theorem allCounted_putRemoteTls {bounds : List (String × Nat × Nat)}
    {remotetls : Option (List Args)} {o : Options} (h : ∀ bound ∈ bounds, "remotetls" ≠ bound.1) :
    AllCounted bounds (putRemoteTls remotetls o) ↔ AllCounted bounds o :=
  forall₂_congr fun bound hb => counted_putRemoteTls (h bound hb)

/-- The ends of a conversion that its callers do not expect. -/
theorem convertOptions_uncaught (order : HashOrder) (p : ConfigParser) (o : Options) :
    Uncaught (convertOptions order p o) ↔ RouteHangs o ∨ IfconfigFails o ∨ BlockFails o := by
  rw [convertOptions]
  refine ((convertRouting_ends _ _).uncaught_bind fun np _ => (convertTlsAuth_ends _ _).uncaught_bind
    fun np _ => (convertDevice_ends _ _).uncaught_bind fun np _ =>
      (convertCiphers_ends _ _).uncaught_bind fun np _ =>
        (convertCertificates_ends _ _ _).uncaught_bind fun r _ =>
          (convertVerification_ends _ _).uncaught_bind fun np _ =>
            (convertConnecting_ends _ _).uncaught_bind fun np _ =>
              (convertRemoteCertTls_ends _ _).uncaught_bind fun np _ =>
                (convertUser_ends _ _ _).uncaught_bind fun np _ =>
                  (Parser.Ends.uncaught_bind_left fun _ _ =>
                    not_uncaught_checkIgnoreAndInvalidOptions _ _ _).trans
                      (convertConnections_uncaught _ _ _)).trans ?_
  simp (disch := decide) only [Options.without_without, Options.find_without_of,
    Options.last_without_of, without_putRemoteTls, find_putRemoteTls, last_putRemoteTls,
    counted_without, allCounted_without, counted_putRemoteTls, allCounted_putRemoteTls,
    connectionValues_iff, false_or]
  simp only [ifconfigFails_iff, blockFails_iff, deviceValues_iff, connectionValues_iff,
    boundsToIfconfig, boundsToBlocks, userBounds, allCounted_append, allCounted_cons,
    allCounted_nil, and_true]
  refine or_congr_right ⟨?_, ?_⟩
  · rintro ⟨⟨hrouting, hroutes⟩, htls, ⟨hdev, ⟨hdevice, hmssfix, hmode⟩, hmask⟩ |
      ⟨⟨hdev, ⟨hdevice, hmssfix, hmode⟩, hmask⟩, hciphers, hcert, ⟨hver, hname⟩, hconn, hrct,
        ⟨hauth, hcrl⟩, ⟨hcounts, hvalues⟩, hblock, hremote, hreach⟩⟩
    · exact .inl ⟨⟨⟨hrouting, htls⟩, hdev⟩, ⟨hroutes, hdevice, hmssfix, hmode⟩, hmask⟩
    · exact .inr ⟨⟨⟨⟨⟨⟨⟨⟨⟨⟨hrouting, htls⟩, hdev⟩, hciphers⟩, hcert⟩, hver⟩, hconn⟩, hrct, hauth,
        hcrl⟩, hcounts⟩, hblock⟩, ⟨hroutes, hdevice, hmssfix, hmode⟩, hmask, hname, hvalues, hremote,
        hreach⟩
  · rintro (⟨⟨⟨hrouting, htls⟩, hdev⟩, ⟨hroutes, hdevice, hmssfix, hmode⟩, hmask⟩ |
      ⟨⟨⟨⟨⟨⟨⟨⟨⟨⟨hrouting, htls⟩, hdev⟩, hciphers⟩, hcert⟩, hver⟩, hconn⟩, hrct, hauth, hcrl⟩,
        hcounts⟩, hblock⟩, ⟨hroutes, hdevice, hmssfix, hmode⟩, hmask, hname, hvalues, hremote,
        hreach⟩)
    · exact ⟨⟨hrouting, hroutes⟩, htls, .inl ⟨hdev, ⟨hdevice, hmssfix, hmode⟩, hmask⟩⟩
    · exact ⟨⟨hrouting, hroutes⟩, htls, .inr ⟨⟨hdev, ⟨hdevice, hmssfix, hmode⟩, hmask⟩, hciphers,
        hcert, ⟨hver, hname⟩, hconn, hrct, ⟨hauth, hcrl⟩, ⟨hcounts, hvalues⟩, hblock, hremote,
        hreach⟩⟩

/-- The options that the reader finds in a text are such that the import ends in an unchecked
way. -/
def EndsUnchecked (reader : Text) : Prop :=
  ∃ p, parseConfig reader = .ok p ∧
    (RouteHangs p.options ∨ IfconfigFails p.options ∨ BlockFails p.options)

/-- **An import returns a profile or fails with a checked error** unless the netmask of a route or of
the `ifconfig` keeps a loop from ending, the netmask of the `ifconfig` misses a part, or a
`connection` is shorter than the tag of an inline file, and the conversion gets there. -/
theorem import_endsChecked_iff (order : HashOrder) (reader : Text) :
    (Returns (importConfig order reader) ∨
        ∃ e, importConfig order reader = .error (.configParseError e)) ↔
      ¬ EndsUnchecked reader := by
  have hends : (Returns (importConfig order reader) ∨
      ∃ e, importConfig order reader = .error (.configParseError e)) ↔
        ¬ Uncaught (importConfig order reader) := by
    cases importConfig order reader with
    | ok np => exact iff_of_true (.inl ⟨np, rfl⟩) (not_uncaught_ok np)
    | error e =>
        cases e with
        | configParseError e =>
            exact iff_of_true (.inr ⟨e, rfl⟩) (not_uncaught_fail e.message)
        | indexOutOfBounds =>
            exact iff_of_false (by simp [Returns]) fun h => h ⟨_, rfl, trivial⟩
        | endlessLoop =>
            exact iff_of_false (by simp [Returns]) fun h => h ⟨_, rfl, trivial⟩
  rw [hends, not_iff_not, importConfig, EndsUnchecked]
  cases hp : parseConfig reader with
  | error e =>
      refine iff_of_false ?_ (by simp)
      have h := not_uncaught_parseConfig reader
      rw [hp, uncaught_error] at h
      exact uncaught_error.not.2 h
  | ok p =>
      simp only [convertProfile, uncaught_map, convertOptions_uncaught, Except.ok.injEq,
        exists_eq_left']

theorem import_endsChecked_counterexample :
    ¬ ∀ (order : HashOrder) (reader : Text), Returns (importConfig order reader) ∨
      ∃ e, importConfig order reader = .error (.configParseError e) := by
  intro h
  have hrun : importConfig insertionOrder "ifconfig 10.0.0.1 255.0\n".toList =
      .error .indexOutOfBounds := by decide +kernel
  rcases h insertionOrder "ifconfig 10.0.0.1 255.0\n".toList with ⟨np, hnp⟩ | ⟨e, he⟩
  · rw [hrun] at hnp
    exact nomatch hnp
  · rw [hrun] at he
    exact nomatch he

end PortVpn.Config
