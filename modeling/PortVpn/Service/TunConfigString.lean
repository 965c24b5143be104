import PortVpn.Net.MostSpecificRoute
import PortVpn.Net.NetworkText
import PortVpn.Service.TunState

/-!
# What the configuration string says

`getTunConfigString` writes the pushed configuration into one text, and an open device is kept when
the texts are equal. Some parts follow each other without a separator, and some have texts that other
parts can have too. `getTunConfigString_inj` says for which configurations the text determines every
part.
-/

set_option autoImplicit false

namespace PortVpn.Service

open PortVpn.Lib PortVpn.Net

/-! ## Numbers in front of a text -/

/-- The text begins with a digit. -/
def StartsWithDigit (t : Text) : Prop := ∃ c ∈ t.head?, c.isDigit

/-- A prefix length of which a longer one can be made by digits behind it. -/
def Extendable (n : Int) : Prop := n = 1 ∨ n = 2 ∨ n = 3

theorem decimal_prefix_length {m n : Nat} (hm : m ≤ 32) (hn : n ≤ 32)
    (h : decimal m <+: decimal n) : m = n ∨ Extendable m := by
  have hall : ∀ m ≤ 32, ∀ n ≤ 32, decimal (m : Nat) <+: decimal (n : Nat) →
      m = n ∨ m = 1 ∨ m = 2 ∨ m = 3 := by decide +kernel
  rcases hall m hm n hn h with h | h | h | h
  · exact .inl h
  · exact .inr (.inl (by omega))
  · exact .inr (.inr (.inl (by omega)))
  · exact .inr (.inr (.inr (by omega)))

/-- A prefix length in front of a text can be read back, unless the text begins with a digit and the
length can be extended. -/
theorem decimal_append_inj {m n : Int} (hm : 0 ≤ m ∧ m ≤ 32) (hn : 0 ≤ n ∧ n ≤ 32) {r r' : Text}
    (hr : StartsWithDigit r → ¬ Extendable m) (hr' : StartsWithDigit r' → ¬ Extendable n)
    (h : decimal m ++ r = decimal n ++ r') : m = n ∧ r = r' := by
  have hone : ∀ {m n : Int} {r r' : Text}, 0 ≤ m ∧ m ≤ 32 → 0 ≤ n ∧ n ≤ 32 →
      (StartsWithDigit r → ¬ Extendable m) → decimal m ++ r = decimal n ++ r' →
      decimal m <+: decimal n → m = n := by
    intro m n r r' hm hn hr h hpre
    obtain ⟨m, rfl⟩ := Int.eq_ofNat_of_zero_le hm.1
    obtain ⟨n, rfl⟩ := Int.eq_ofNat_of_zero_le hn.1
    by_contra hne
    obtain ⟨d, hd⟩ := hpre
    refine hr ?_ ((decimal_prefix_length (by omega) (by omega) ⟨d, hd⟩).resolve_left
      fun heq => hne (congrArg _ heq))
    have hrd : r = d ++ r' := by
      rw [← hd, List.append_assoc] at h
      exact List.append_cancel_left h
    cases d with
    | nil =>
        rw [List.append_nil] at hd
        exact absurd (decimal_inj hd) hne
    | cons c d =>
        refine ⟨c, by rw [hrd]; rfl, ?_⟩
        have hc : c ∈ decimal (n : Int) := by
          rw [← hd]
          exact List.mem_append_right _ List.mem_cons_self
        exact Nat.isDigit_of_mem_toDigits (by omega) (by omega) hc
  have heq : m = n := by
    rcases List.prefix_or_prefix_of_prefix (List.prefix_append (decimal m) r)
      (h ▸ List.prefix_append (decimal n) r') with hpre | hpre
    · exact hone hm hn hr h hpre
    · exact (hone hn hm hr' h.symm hpre).symm
  subst heq
  exact ⟨rfl, List.append_cancel_left h⟩

/-! ## Routes -/

section

variable {a b : IpAddress}

/-- The address in the text of a network. -/
def addressText (a : IpAddress) : Text := if a.isV4 then a.getIPv4Address else a.getIPv6Address

theorem toText_eq (a : IpAddress) : a.toText = addressText a ++ '/' :: decimal a.networkMask := rfl

/-- Characters that separate or mark the parts around the networks. -/
def stops : Text := "/|xn".toList

theorem notMem_decimal {c : Char} (hc : c ∈ stops) (n : Int) : c ∉ decimal n := by
  have hall : ∀ c ∈ stops, ¬ (c = '-' ∨ c.isDigit) := by decide
  exact fun h => hall c hc (mem_decimal h)

theorem notMem_addressText {c : Char} (hc : c ∈ stops) (a : IpAddress) : c ∉ addressText a := by
  have h4 : ∀ c ∈ stops, ¬ (c = '.' ∨ c = '-' ∨ c.isDigit) := by decide
  have h6 : ∀ c ∈ stops, ¬ (c = ':' ∨ c ∈ "0123456789abcdef".toList) := by decide
  rw [addressText]
  split
  · exact fun h => h4 c hc (IpAddress.mem_getIPv4Address h)
  · exact fun h => h6 c hc (IpAddress.mem_getIPv6Address h)

theorem notMem_toText {c : Char} (hc : c ∈ stops) (hslash : c ≠ '/') (a : IpAddress) :
    c ∉ a.toText := by
  rw [toText_eq, List.mem_append, List.mem_cons]
  rintro (h | h | h)
  · exact notMem_addressText hc a h
  · exact hslash h
  · exact notMem_decimal hc _ h

theorem toText_ne_nil (a : IpAddress) : a.toText ≠ [] := by
  rw [toText_eq]
  simp

/-- A network is read up to its address. -/
theorem toText_address_inj {r r' : Text} (h : a.toText ++ r = b.toText ++ r') :
    addressText a = addressText b ∧
      decimal a.networkMask ++ r = decimal b.networkMask ++ r' := by
  rw [toText_eq, toText_eq, List.append_assoc, List.append_assoc, List.cons_append,
    List.cons_append] at h
  exact append_cons_inj (notMem_addressText (by decide) a) (notMem_addressText (by decide) b) h

/-- An IPv6 network can be read back. -/
theorem toText6_inj (ha : a.Plain6) (hb : b.Plain6) (hf : a.included = b.included)
    (h : a.toText = b.toText) : a = b := by
  have h' : a.toText ++ [] = b.toText ++ [] := by rw [h]
  obtain ⟨haddr, hmask⟩ := toText_address_inj h'
  simp only [addressText, ha.isV4, hb.isV4, Bool.false_eq_true, if_false] at haddr
  have haddr := IpAddress.getIPv6Address_inj ha hb haddr
  have hmask := decimal_inj (List.append_cancel_right hmask)
  have hv := ha.isV4.trans hb.isV4.symm
  obtain ⟨n, m, f, v⟩ := a
  obtain ⟨n', m', f', v'⟩ := b
  simp only at haddr hmask hv hf
  rw [haddr, hmask, hv, hf]

/-- An IPv4 network can be read back from the front of a text. -/
theorem toText4_inj (ha : a.Plain4) (hb : b.Plain4) (hf : a.included = b.included) {r r' : Text}
    (hr : StartsWithDigit r → ¬ Extendable a.networkMask)
    (hr' : StartsWithDigit r' → ¬ Extendable b.networkMask)
    (h : a.toText ++ r = b.toText ++ r') : a = b ∧ r = r' := by
  obtain ⟨haddr, hmask⟩ := toText_address_inj h
  simp only [addressText, ha.isV4, hb.isV4, if_true] at haddr
  have haddr := IpAddress.getIPv4Address_inj ha.address hb.address haddr
  obtain ⟨hmask, hrest⟩ := decimal_append_inj ha.mask hb.mask hr hr' hmask
  have hv := ha.isV4.trans hb.isV4.symm
  refine ⟨?_, hrest⟩
  obtain ⟨n, m, f, v⟩ := a
  obtain ⟨n', m', f', v'⟩ := b
  simp only at haddr hmask hv hf
  rw [haddr, hmask, hv, hf]

end

namespace TunState

theorem join_nil : join [] = [] := rfl

theorem join_cons (a : IpAddress) (l : List IpAddress) :
    join (a :: l) = a.toText ++ if l = [] then [] else '|' :: join l := by
  cases l with
  | nil => simp [join]
  | cons b l =>
      rw [join, List.map_cons, List.map_cons, List.intercalate_cons_cons, ← List.map_cons, ← join]
      simp

theorem notMem_join {c : Char} (hc : c ∈ stops) (hslash : c ≠ '/') (hbar : c ≠ '|')
    (l : List IpAddress) : c ∉ join l := by
  induction l with
  | nil => exact List.not_mem_nil
  | cons a l ih =>
      rw [join_cons, List.mem_append]
      rintro (h | h)
      · exact notMem_toText hc hslash a h
      · split at h
        · exact List.not_mem_nil h
        · rcases List.mem_cons.1 h with h | h
          · exact hbar h
          · exact ih h

/-- The networks of one direction, of both families. -/
structure PlainRoutes (included : Bool) (l m : List IpAddress) : Prop where
  plain4 : ∀ a ∈ l, a.Plain4 ∧ a.included = included
  plain6 : ∀ a ∈ m, a.Plain6 ∧ a.included = included
  last : m ≠ [] → ∀ a, l.getLast? = some a → ¬ Extendable a.networkMask

theorem join6_inj {m m' : List IpAddress} {f : Bool} (hm : ∀ a ∈ m, a.Plain6 ∧ a.included = f)
    (hm' : ∀ a ∈ m', a.Plain6 ∧ a.included = f) (h : join m = join m') : m = m' := by
  have hparts : ∀ l : List IpAddress, ∀ t ∈ l.map IpAddress.toText, t ≠ [] ∧ '|' ∉ t := by
    intro l t ht
    obtain ⟨a, -, rfl⟩ := List.mem_map.1 ht
    exact ⟨toText_ne_nil a, notMem_toText (by decide) (by decide) a⟩
  have hmap := intercalate_inj (hparts m) (hparts m') h
  clear h
  induction m generalizing m' with
  | nil => exact (List.map_eq_nil_iff.1 hmap.symm).symm
  | cons a m ih =>
      cases m' with
      | nil => exact nomatch hmap
      | cons b m' =>
          obtain ⟨hhead, htail⟩ := List.cons.inj hmap
          obtain ⟨ha, hm⟩ := List.forall_mem_cons.1 hm
          obtain ⟨hb, hm'⟩ := List.forall_mem_cons.1 hm'
          rw [toText6_inj ha.1 hb.1 (ha.2.trans hb.2.symm) hhead, ih hm hm' htail]

/-- A list of IPv6 networks and a text that begins with an IPv4 network differ. -/
theorem join6_ne {m : List IpAddress} (hm : ∀ a ∈ m, a.Plain6) {b : IpAddress} (hb : b.Plain4)
    {r : Text} (h : join m = b.toText ++ r) : False := by
  cases m with
  | nil =>
      rw [join_nil, toText_eq] at h
      simp at h
  | cons a m =>
      rw [join_cons] at h
      obtain ⟨haddr, -⟩ := toText_address_inj h
      have ha := (hm a List.mem_cons_self).isV4
      simp only [addressText, ha, hb.isV4, Bool.false_eq_true, if_false, if_true] at haddr
      have hdot := IpAddress.dot_mem_getIPv4Address b
      rw [← haddr] at hdot
      exact absurd (IpAddress.mem_getIPv6Address hdot) (by decide)

theorem head?_join (m : List IpAddress) : (join m).head? ≠ some '|' := by
  intro h
  cases m with
  | nil => exact nomatch h
  | cons a m =>
      rw [join_cons, List.head?_append_of_ne_nil _ (toText_ne_nil a)] at h
      exact notMem_toText (by decide) (by decide) a (List.mem_of_head? h)

/-- What follows the first network of a list. -/
def behindFirst (l m : List IpAddress) : Text := (if l = [] then [] else '|' :: join l) ++ join m

theorem join_append (a : IpAddress) (l m : List IpAddress) :
    join (a :: l) ++ join m = a.toText ++ behindFirst l m := by
  rw [join_cons, List.append_assoc, behindFirst]

theorem PlainRoutes.tail {f : Bool} {a : IpAddress} {l m : List IpAddress}
    (h : PlainRoutes f (a :: l) m) : PlainRoutes f l m := by
  refine ⟨fun b hb => h.plain4 b (List.mem_cons_of_mem a hb), h.plain6, fun hm b hb => ?_⟩
  refine h.last hm b ?_
  rw [List.getLast?_cons, hb]
  rfl

/-- A digit behind the first network belongs to an IPv6 network. -/
theorem PlainRoutes.behindFirst {f : Bool} {a : IpAddress} {l m : List IpAddress}
    (h : PlainRoutes f (a :: l) m) (hd : StartsWithDigit (behindFirst l m)) :
    ¬ Extendable a.networkMask := by
  obtain ⟨c, hc, hdigit⟩ := hd
  rw [TunState.behindFirst] at hc
  split at hc
  · rename_i hl
    refine h.last ?_ a (by rw [hl]; rfl)
    rintro rfl
    exact nomatch hc
  · obtain rfl := Option.some.inj hc
    exact absurd hdigit (by decide)

theorem behindFirst_inj {l l' m m' : List IpAddress} (h : behindFirst l m = behindFirst l' m') :
    (l = [] ↔ l' = []) ∧ join l ++ join m = join l' ++ join m' := by
  unfold behindFirst at h
  by_cases hl : l = []
  · by_cases hl' : l' = []
    · subst hl hl'
      exact ⟨Iff.rfl, h⟩
    · rw [if_pos hl, if_neg hl'] at h
      exact absurd (congrArg List.head? h) (head?_join m)
  · by_cases hl' : l' = []
    · rw [if_neg hl, if_pos hl'] at h
      exact absurd (congrArg List.head? h).symm (head?_join m')
    · rw [if_neg hl, if_neg hl'] at h
      exact ⟨iff_of_false hl hl', (List.cons.inj h).2⟩

/-- **The routes of one direction** can be read back. -/
theorem routes_inj {f : Bool} {l l' m m' : List IpAddress} (h : PlainRoutes f l m)
    (h' : PlainRoutes f l' m') (heq : join l ++ join m = join l' ++ join m') :
    l = l' ∧ m = m' := by
  induction l generalizing l' with
  | nil =>
      cases l' with
      | nil => exact ⟨rfl, join6_inj h.plain6 h'.plain6 heq⟩
      | cons b l' =>
          rw [join_append] at heq
          exact (join6_ne (fun a ha => (h.plain6 a ha).1)
            (h'.plain4 b List.mem_cons_self).1 heq).elim
  | cons a l ih =>
      cases l' with
      | nil =>
          rw [join_append] at heq
          exact (join6_ne (fun a ha => (h'.plain6 a ha).1)
            (h.plain4 a List.mem_cons_self).1 heq.symm).elim
      | cons b l' =>
          rw [join_append, join_append] at heq
          obtain ⟨ha, hfa⟩ := h.plain4 a List.mem_cons_self
          obtain ⟨hb, hfb⟩ := h'.plain4 b List.mem_cons_self
          obtain ⟨rfl, hrest⟩ :=
            toText4_inj ha hb (hfa.trans hfb.symm) h.behindFirst h'.behindFirst heq
          obtain ⟨rfl, rfl⟩ := ih h.tail h'.tail (behindFirst_inj hrest).2
          exact ⟨rfl, rfl⟩

/-! ## Local addresses -/

/-- The local addresses in the text. -/
def localText (s : TunState) : Text := (s.mLocalIP.map CIDRIP.toText).getD [] ++ s.mLocalIPv6.getD []

/-- Local addresses that can be told from each other: an IPv4 address without the characters of the
other family, and an IPv6 address with them. -/
structure PlainLocal (s : TunState) : Prop where
  ip : ∀ c, s.mLocalIP = some c → ':' ∉ c.mIp ∧ '/' ∉ c.mIp ∧ ¬ "routes: ".toList <:+: c.mIp ∧
    0 ≤ c.len ∧ c.len ≤ 32
  ipv6 : ∀ x, s.mLocalIPv6 = some x → ':' ∈ x.takeWhile (· ≠ '/') ∧ ¬ "routes: ".toList <:+: x
  len : s.mLocalIPv6 ≠ none → ∀ c, s.mLocalIP = some c → ¬ Extendable c.len

theorem toText_localIP (c : CIDRIP) (r : Text) :
    c.toText ++ r = c.mIp ++ '/' :: (decimal c.len ++ r) := by
  rw [CIDRIP.toText, List.append_assoc, List.cons_append]

theorem PlainLocal.not_infix {s : TunState} (h : s.PlainLocal) :
    ¬ "routes: ".toList <:+: s.localText := by
  intro hinf
  have hv6 : ¬ "routes: ".toList <:+: s.mLocalIPv6.getD [] := by
    cases hx : s.mLocalIPv6 with
    | none => exact fun hinf => absurd (List.infix_nil.1 hinf) (by decide)
    | some x => exact (h.ipv6 x hx).2
  rw [localText] at hinf
  cases hc : s.mLocalIP with
  | none =>
      rw [hc] at hinf
      exact hv6 hinf
  | some c =>
      obtain ⟨-, -, hip, -, -⟩ := h.ip c hc
      rw [hc, Option.map_some, Option.getD_some, toText_localIP] at hinf
      rcases infix_append_cons (by decide) hinf with hinf | hinf
      · exact hip hinf
      · have hr : 'r' ∉ decimal c.len := fun hr => absurd (mem_decimal hr) (by decide)
        rcases List.infix_append_iff.1 hinf with hinf | hinf | ⟨a, b, hab, ha, hb⟩
        · exact hr (hinf.subset (by decide))
        · exact hv6 hinf
        · cases a with
          | nil => exact hv6 (hab ▸ hb.isInfix)
          | cons x a =>
              obtain ⟨rfl, -⟩ := List.cons.inj hab
              exact hr (ha.subset List.mem_cons_self)

/-- The text in front of the first slash tells the families apart. -/
theorem PlainLocal.ne_of_ip {s t : TunState} (hs : s.PlainLocal) (ht : t.PlainLocal) {c : CIDRIP}
    (hc : s.mLocalIP = some c) (hnone : t.mLocalIP = none) : s.localText ≠ t.localText := by
  intro h
  obtain ⟨hcolon, hslash, -, -, -⟩ := hs.ip c hc
  rw [localText, localText, hc, hnone, Option.map_some, Option.getD_some, toText_localIP] at h
  cases hx : t.mLocalIPv6 with
  | none =>
      rw [hx] at h
      simp at h
  | some x =>
      have hmem := (ht.ipv6 x hx).1
      rw [hx] at h
      simp only [Option.map_none, Option.getD_none, Option.getD_some, List.nil_append] at h
      rw [← h, List.takeWhile_append_of_pos] at hmem
      · simp only [List.takeWhile_cons, ne_eq, not_true_eq_false, decide_false, Bool.false_eq_true,
          if_false, List.append_nil] at hmem
        exact hcolon hmem
      · intro d hd
        exact decide_eq_true fun heq => hslash (heq ▸ hd)

theorem PlainLocal.ipv6_inj {s t : TunState} (hs : s.PlainLocal) (ht : t.PlainLocal)
    (h : s.mLocalIPv6.getD [] = t.mLocalIPv6.getD []) : s.mLocalIPv6 = t.mLocalIPv6 := by
  have hne : ∀ {u : TunState}, u.PlainLocal → u.mLocalIPv6 ≠ some [] := by
    intro u hu hx
    exact absurd (hu.ipv6 [] hx).1 (List.not_mem_nil)
  cases hx : s.mLocalIPv6 with
  | none =>
      cases hy : t.mLocalIPv6 with
      | none => rfl
      | some y =>
          rw [hx, hy] at h
          exact absurd hy (by rw [show y = [] from h.symm]; exact hy ▸ hne ht)
  | some x =>
      cases hy : t.mLocalIPv6 with
      | none =>
          rw [hx, hy] at h
          exact absurd hx (by rw [show x = [] from h]; exact hne hs)
      | some y =>
          rw [hx, hy] at h
          exact congrArg some h

/-- **The local addresses** can be read back. -/
theorem localText_inj {s t : TunState} (hs : s.PlainLocal) (ht : t.PlainLocal)
    (h : s.localText = t.localText) : s.mLocalIP = t.mLocalIP ∧ s.mLocalIPv6 = t.mLocalIPv6 := by
  cases hc : s.mLocalIP with
  | none =>
      cases hd : t.mLocalIP with
      | none =>
          rw [localText, localText, hc, hd] at h
          exact ⟨rfl, hs.ipv6_inj ht h⟩
      | some d => exact absurd h.symm (ht.ne_of_ip hs hd hc)
  | some c =>
      cases hd : t.mLocalIP with
      | none => exact absurd h (hs.ne_of_ip ht hc hd)
      | some d =>
          obtain ⟨-, hcs, -, hc0, hc32⟩ := hs.ip c hc
          obtain ⟨-, hds, -, hd0, hd32⟩ := ht.ip d hd
          have hdigit : ∀ {u : TunState} {e : CIDRIP}, u.PlainLocal → u.mLocalIP = some e →
              StartsWithDigit (u.mLocalIPv6.getD []) → ¬ Extendable e.len := by
            intro u e hu he hstart
            refine hu.len ?_ e he
            intro hnone
            rw [hnone] at hstart
            obtain ⟨_, hmem, -⟩ := hstart
            exact nomatch hmem
          rw [localText, localText, hc, hd, Option.map_some, Option.map_some, Option.getD_some,
            Option.getD_some, toText_localIP, toText_localIP] at h
          obtain ⟨hip, hrest⟩ := append_cons_inj hcs hds h
          obtain ⟨hlen, hv6⟩ := decimal_append_inj ⟨hc0, hc32⟩ ⟨hd0, hd32⟩ (hdigit hs hc)
            (hdigit ht hd) hrest
          refine ⟨?_, hs.ipv6_inj ht hv6⟩
          obtain ⟨ip, len⟩ := c
          obtain ⟨ip', len'⟩ := d
          simp only at hip hlen
          rw [hip, hlen]

/-! ## The whole text -/

/-- A configuration of which every part can be told from the text. -/
structure Legible (s : TunState) : Prop extends PlainLocal s where
  routes : ∀ included, PlainRoutes included (s.mRoutes.getNetworks included)
    (s.mRoutesv6.getNetworks included)
  dns : ∀ d ∈ s.mDnslist, d ≠ [] ∧ '|' ∉ d ∧ ¬ "domain: ".toList <:+: d
  domain : s.mDomain ≠ some "null".toList

/-- Two configurations that are equal part by part. -/
structure SameConfig (s t : TunState) : Prop where
  mLocalIP : s.mLocalIP = t.mLocalIP
  mLocalIPv6 : s.mLocalIPv6 = t.mLocalIPv6
  routes : ∀ included, s.mRoutes.getNetworks included = t.mRoutes.getNetworks included
  routesv6 : ∀ included, s.mRoutesv6.getNetworks included = t.mRoutesv6.getNetworks included
  mDnslist : s.mDnslist = t.mDnslist
  mDomain : s.mDomain = t.mDomain
  mMtu : s.mMtu = t.mMtu

/-- The routes of one direction in the text. -/
def routesText (s : TunState) (included : Bool) : Text :=
  join (s.mRoutes.getNetworks included) ++ join (s.mRoutesv6.getNetworks included)

/-- The text behind the routes. -/
def namesText (s : TunState) : Text :=
  "|".toList.intercalate s.mDnslist ++ "domain: ".toList ++
    (s.mDomain.getD "null".toList ++ "mtu: ".toList ++ decimal s.mMtu)

theorem getTunConfigString_eq (s : TunState) :
    s.getTunConfigString = "TUNCFG UNQIUE STRING ips:".toList ++
      (s.localText ++ "routes: ".toList ++ (s.routesText true ++ "excl. routes:".toList ++
        (s.routesText false ++ "dns: ".toList ++ s.namesText))) := by
  unfold getTunConfigString localText routesText namesText
  generalize "TUNCFG UNQIUE STRING ips:".toList = start
  generalize "routes: ".toList = incl
  generalize "excl. routes:".toList = excl
  generalize "dns: ".toList = dns
  generalize "domain: ".toList = domain
  generalize "mtu: ".toList = mtu
  simp only [List.append_assoc]

/-- The two texts of the routes end before a character that no network has. -/
theorem routesText_inj {s t : TunState} {r r' : Text}
    (h : s.routesText true ++ "excl. routes:".toList ++ (s.routesText false ++ "dns: ".toList ++ r) =
      t.routesText true ++ "excl. routes:".toList ++ (t.routesText false ++ "dns: ".toList ++ r')) :
    (∀ included, s.routesText included = t.routesText included) ∧ r = r' := by
  have hnot : ∀ (u : TunState) (included : Bool) (c : Char), c ∈ stops → c ≠ '/' → c ≠ '|' →
      c ∉ u.routesText included := by
    intro u included c hc hslash hbar hmem
    rcases List.mem_append.1 hmem with hmem | hmem
    · exact notMem_join hc hslash hbar _ hmem
    · exact notMem_join hc hslash hbar _ hmem
  have hx : ∀ u : TunState, ¬ "excl. routes:".toList <:+: u.routesText true := fun u hinf =>
    hnot u true 'x' (by decide) (by decide) (by decide) (hinf.subset (by decide))
  have hn : ∀ u : TunState, ¬ "dns: ".toList <:+: u.routesText false := fun u hinf =>
    hnot u false 'n' (by decide) (by decide) (by decide) (hinf.subset (by decide))
  obtain ⟨hincl, h⟩ := append_marker_inj (by decide) (hx s) (hx t) h
  obtain ⟨hexcl, h⟩ := append_marker_inj (by decide) (hn s) (hn t) h
  exact ⟨fun included => by cases included; exacts [hexcl, hincl], h⟩

theorem namesText_inj {s t : TunState} (hs : s.Legible) (ht : t.Legible)
    (h : s.namesText = t.namesText) :
    s.mDnslist = t.mDnslist ∧ s.mDomain = t.mDomain ∧ s.mMtu = t.mMtu := by
  have hinf : ∀ {u : TunState}, u.Legible →
      ¬ "domain: ".toList <:+: ['|'].intercalate u.mDnslist := fun hu =>
    not_infix_intercalate (by decide) (by decide) fun d hd => (hu.dns d hd).2.2
  obtain ⟨hdns, h⟩ := append_marker_inj (by decide) (hinf hs) (hinf ht) h
  have hlist := intercalate_inj (fun d hd => ⟨(hs.dns d hd).1, (hs.dns d hd).2.1⟩)
    (fun d hd => ⟨(ht.dns d hd).1, (ht.dns d hd).2.1⟩) hdns
  -- the number is what follows the last blank
  have hblank : ∀ u : TunState, u.mDomain.getD "null".toList ++ "mtu: ".toList ++ decimal u.mMtu =
      (u.mDomain.getD "null".toList ++ "mtu:".toList) ++ ' ' :: decimal u.mMtu := fun u => by
    rw [List.append_assoc, List.append_assoc]
    rfl
  have hdec : ∀ n : Int, ' ' ∉ decimal n := fun n hn => absurd (mem_decimal hn) (by decide)
  rw [hblank, hblank] at h
  obtain ⟨hdomain, hmtu⟩ := append_cons_inj_last (hdec _) (hdec _) h
  refine ⟨hlist, ?_, decimal_inj hmtu⟩
  have hdomain := List.append_cancel_right hdomain
  cases hd : s.mDomain with
  | none =>
      cases he : t.mDomain with
      | none => rfl
      | some e =>
          rw [hd, he] at hdomain
          exact absurd (he.trans (congrArg some hdomain.symm)) ht.domain
  | some d =>
      cases he : t.mDomain with
      | none =>
          rw [hd, he] at hdomain
          exact absurd (hd.trans (congrArg some hdomain)) hs.domain
      | some e =>
          rw [hd, he] at hdomain
          exact congrArg some hdomain

/-- **Equal texts, equal configurations**, for configurations whose parts can be told from the
text. -/
theorem getTunConfigString_inj {s t : TunState} (hs : s.Legible) (ht : t.Legible)
    (h : s.getTunConfigString = t.getTunConfigString) : s.SameConfig t := by
  rw [getTunConfigString_eq, getTunConfigString_eq] at h
  have h := List.append_cancel_left h
  obtain ⟨hlocal, h⟩ := append_marker_inj (by decide) hs.not_infix ht.not_infix h
  obtain ⟨hip, hipv6⟩ := localText_inj hs.toPlainLocal ht.toPlainLocal hlocal
  obtain ⟨hroutes, h⟩ := routesText_inj h
  obtain ⟨hdns, hdomain, hmtu⟩ := namesText_inj hs ht h
  have hboth := fun included => routes_inj (hs.routes included) (ht.routes included)
    (hroutes included)
  exact ⟨hip, hipv6, fun f => (hboth f).1, fun f => (hboth f).2, hdns, hdomain, hmtu⟩

end TunState

/-- A state with a local address, a route and a name server. -/
def connected : TunState where
  mDnslist := ["10.8.0.1".toList]
  mRoutes := ⟨[⟨0x0A080000, 24, true, true⟩]⟩
  mLocalIP := some ⟨"10.8.0.2".toList, 24⟩
  mMtu := 1500

theorem connected_legible (gateway : Option Text) :
    TunState.Legible { connected with mRemoteGW := gateway } where
  ip := by
    intro c hc
    obtain rfl := Option.some.inj hc
    exact ⟨by decide, by decide, by decide, by decide, by decide⟩
  ipv6 := fun _ hx => nomatch hx
  len := fun hne => absurd rfl hne
  routes := by
    intro included
    refine ⟨fun a ha => ?_, fun a ha => ?_, fun hne => absurd ?_ hne⟩
    · cases included with
      | false => exact absurd ha List.not_mem_nil
      | true =>
          obtain rfl := List.mem_singleton.1 ha
          exact ⟨⟨rfl, by decide, by decide⟩, rfl⟩
    · cases included <;> exact absurd ha List.not_mem_nil
    · cases included <;> rfl
  dns := by
    intro d hd
    obtain rfl := List.mem_singleton.1 hd
    exact ⟨by decide, by decide, by decide⟩
  domain := fun h => nomatch h

/-- The remote gateway is no part of the configuration. -/
theorem getTunConfigString_inj_gateway :
    TunState.SameConfig { connected with mRemoteGW := none }
      { connected with mRemoteGW := some "255.255.255.0".toList } :=
  TunState.getTunConfigString_inj (connected_legible none) (connected_legible _) (by decide +kernel)

instance (v : Bool) (a : IpAddress) : Decidable (a.Valid v) :=
  inferInstanceAs (Decidable (a.isV4 = v ∧ 0 ≤ a.networkMask ∧ a.networkMask ≤ IpAddress.width v))

/-- **Two cuts of one text**: the IPv4 route 224.0.0.0/3 with the IPv6 route 2::/16, and 224.0.0.0/32
with ::/16. -/
theorem getTunConfigString_counterexample :
    ¬ ∀ s t : TunState, (∀ a ∈ s.mRoutes.mIpAddresses ++ t.mRoutes.mIpAddresses, a.Valid true) →
      (∀ a ∈ s.mRoutesv6.mIpAddresses ++ t.mRoutesv6.mIpAddresses, a.Valid false) →
        s.getTunConfigString = t.getTunConfigString → s.SameConfig t := by
  intro h
  have hsame := h
    { connected with
      mRoutes := ⟨[⟨0xE0000000, 3, true, true⟩]⟩, mRoutesv6 := ⟨[⟨2 ^ 113, 16, true, false⟩]⟩ }
    { connected with
      mRoutes := ⟨[⟨0xE0000000, 32, true, true⟩]⟩, mRoutesv6 := ⟨[⟨0, 16, true, false⟩]⟩ }
    (by decide) (by decide) (by decide +kernel)
  exact absurd (hsame.routes true) (by decide)

end PortVpn.Service
