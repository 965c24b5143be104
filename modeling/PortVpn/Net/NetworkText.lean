import PortVpn.Lib.IPv6Text
import PortVpn.Net.NetworkSpace

/-!
# The text of a network

`ipAddress.toString` writes a network as its address and its prefix length. An IPv4 address can be
read back. The text of an IPv6 address begins with its first group that is not zero and leaves out
the zero groups at its end, so that it does not say where the groups are unless the first or the last
one is not zero.
-/

set_option autoImplicit false

namespace PortVpn.Net

open PortVpn.Lib PortVpn.Lib.IPv6Text

namespace IpAddress

variable {a b : IpAddress}

/-! ## IPv4 -/

/-- An IPv4 network of the address space, with a prefix length in range. -/
structure Plain4 (a : IpAddress) : Prop where
  isV4 : a.isV4 = true
  address : 0 ≤ a.netAddress ∧ a.netAddress < 2 ^ 32
  mask : 0 ≤ a.networkMask ∧ a.networkMask ≤ 32

theorem getIPv4Address_eq (h : 0 ≤ a.netAddress ∧ a.netAddress < 2 ^ 32) :
    a.getIPv4Address = decimal (a.netAddress / 2 ^ 24 % 256) ++ '.' ::
      (decimal (a.netAddress / 2 ^ 16 % 256) ++ '.' ::
        (decimal (a.netAddress / 2 ^ 8 % 256) ++ '.' :: decimal (a.netAddress % 256))) := by
  obtain ⟨hlow, hhigh⟩ := h
  rw [getIPv4Address]
  rw [wrap64_eq_self (by omega) (by omega)]
  simp only [Int.tmod_eq_emod_of_nonneg hlow,
    Int.tmod_eq_emod_of_nonneg (Int.ediv_nonneg hlow (by omega : (0 : Int) ≤ 2 ^ 24)),
    Int.tmod_eq_emod_of_nonneg (Int.ediv_nonneg hlow (by omega : (0 : Int) ≤ 2 ^ 16)),
    Int.tmod_eq_emod_of_nonneg (Int.ediv_nonneg hlow (by omega : (0 : Int) ≤ 2 ^ 8)),
    List.append_assoc, List.cons_append]

theorem dot_notMem_decimal (n : Int) : '.' ∉ decimal n := by
  intro h
  rcases mem_decimal h with h | h
  · exact absurd h (by decide)
  · exact absurd h (by decide)

/-- The text of an IPv4 address can be read back. -/
theorem getIPv4Address_inj (ha : 0 ≤ a.netAddress ∧ a.netAddress < 2 ^ 32)
    (hb : 0 ≤ b.netAddress ∧ b.netAddress < 2 ^ 32) (h : a.getIPv4Address = b.getIPv4Address) :
    a.netAddress = b.netAddress := by
  rw [getIPv4Address_eq ha, getIPv4Address_eq hb] at h
  obtain ⟨h₁, h⟩ := append_cons_inj (dot_notMem_decimal _) (dot_notMem_decimal _) h
  obtain ⟨h₂, h⟩ := append_cons_inj (dot_notMem_decimal _) (dot_notMem_decimal _) h
  obtain ⟨h₃, h₄⟩ := append_cons_inj (dot_notMem_decimal _) (dot_notMem_decimal _) h
  have h₁ := decimal_inj h₁
  have h₂ := decimal_inj h₂
  have h₃ := decimal_inj h₃
  have h₄ := decimal_inj h₄
  omega

theorem dot_mem_getIPv4Address (a : IpAddress) : '.' ∈ a.getIPv4Address := by
  rw [getIPv4Address]
  simp only [List.append_assoc, List.cons_append]
  exact List.mem_append_right _ List.mem_cons_self

theorem mem_getIPv4Address {c : Char} (h : c ∈ a.getIPv4Address) :
    c = '.' ∨ c = '-' ∨ c.isDigit := by
  rw [getIPv4Address] at h
  simp only [List.mem_append, List.mem_cons] at h
  rcases h with ((h | h | h) | h | h) | h | h
  · exact .inr (mem_decimal h)
  · exact .inl h
  · exact .inr (mem_decimal h)
  · exact .inl h
  · exact .inr (mem_decimal h)
  · exact .inl h
  · exact .inr (mem_decimal h)

/-! ## IPv6 -/

/-- The groups of an IPv6 address, the last one first. -/
def groups : Nat → Nat → List Nat
  | 0, _ => []
  | fuel + 1, r => if r = 0 then [] else r % 2 ^ 16 :: groups fuel (r / 2 ^ 16)

/-- An IPv6 network of the address space, with a prefix length in range, whose address is zero or
does not have zero groups at both ends. -/
structure Plain6 (a : IpAddress) : Prop where
  isV4 : a.isV4 = false
  address : 0 ≤ a.netAddress ∧ a.netAddress < 2 ^ 128
  mask : 0 ≤ a.networkMask ∧ a.networkMask ≤ 128
  ends : a.netAddress = 0 ∨ 2 ^ 112 ≤ a.netAddress ∨ a.netAddress % 2 ^ 16 ≠ 0

theorem mem_ipv6Groups {fuel : Nat} {r : Int} {lastPart : Bool} {ipv6str : Option Text} {t : Text}
    (ht : ∀ t, ipv6str = some t → ∀ c ∈ t, c = ':' ∨ c ∈ "0123456789abcdef".toList)
    (h : ipv6Groups fuel r lastPart ipv6str = some t) :
    ∀ c ∈ t, c = ':' ∨ c ∈ "0123456789abcdef".toList := by
  induction fuel generalizing r lastPart ipv6str with
  | zero => exact ht t h
  | succ fuel ih =>
      rw [ipv6Groups] at h
      split at h
      · refine ih (fun s hs c hc => ?_) h
        split at hs
        · split at hs
          · obtain rfl := Option.some.inj hs
            exact .inr (mem_toDigits hc)
          · obtain rfl := Option.some.inj hs
            rcases List.mem_append.1 hc with hc | hc
            · exact .inr (mem_toDigits hc)
            · rcases List.mem_cons.1 hc with hc | hc
              · exact .inl hc
              · cases hstr : ipv6str with
                | none =>
                    rw [hstr] at hc
                    exact .inl (List.mem_singleton.1 hc)
                | some s =>
                    rw [hstr] at hc
                    exact ht s hstr c hc
        · exact nomatch hs
      · exact ht t h

theorem mem_getIPv6Address {c : Char} (h : c ∈ a.getIPv6Address) :
    c = ':' ∨ c ∈ "0123456789abcdef".toList := by
  rw [getIPv6Address] at h
  cases ht : ipv6Groups (a.netAddress.toNat.log2 / 16 + 1) a.netAddress true none with
  | none =>
      rw [ht] at h
      simp only [Option.getD_none, List.mem_cons, List.not_mem_nil, or_false, or_self] at h
      exact .inl h
  | some t =>
      rw [ht] at h
      exact mem_ipv6Groups (by simp) ht c h

/-- The number with these groups. -/
def ofGroups (gs : List Nat) : Nat := gs.foldr (fun g n => g + 2 ^ 16 * n) 0

theorem ofGroups_groups {fuel r : Nat} (h : r < 2 ^ (16 * fuel)) : ofGroups (groups fuel r) = r := by
  induction fuel generalizing r with
  | zero =>
      have : r = 0 := by simpa using h
      rw [this]
      rfl
  | succ fuel ih =>
      rw [groups]
      split
      · rename_i hr
        rw [hr]
        rfl
      · have hlt : r / 2 ^ 16 < 2 ^ (16 * fuel) := by
          refine Nat.div_lt_of_lt_mul ?_
          rwa [← pow_add, add_comm 16, ← Nat.mul_succ]
        show r % 2 ^ 16 + 2 ^ 16 * ofGroups (groups fuel (r / 2 ^ 16)) = r
        rw [ih hlt, Nat.mod_add_div]

theorem ofGroups_zeros (n : Nat) (gs : List Nat) :
    ofGroups (List.replicate n 0 ++ gs) = 2 ^ (16 * n) * ofGroups gs := by
  induction n with
  | zero => simp
  | succ n ih =>
      rw [List.replicate_succ, List.cons_append]
      show 0 + 2 ^ 16 * ofGroups (List.replicate n 0 ++ gs) = _
      rw [ih, zero_add, ← mul_assoc, ← pow_add, Nat.mul_succ, add_comm 16]

theorem length_groups_le {fuel r n : Nat} (h : r < 2 ^ (16 * n)) : (groups fuel r).length ≤ n := by
  induction fuel generalizing r n with
  | zero => exact Nat.zero_le n
  | succ fuel ih =>
      rw [groups]
      split
      · exact Nat.zero_le n
      · rename_i hr
        cases n with
        | zero => exact absurd (by simpa using h) hr
        | succ n =>
            have hlt : r / 2 ^ 16 < 2 ^ (16 * n) := by
              refine Nat.div_lt_of_lt_mul ?_
              rwa [← pow_add, add_comm 16, ← Nat.mul_succ]
            rw [List.length_cons]
            exact Nat.succ_le_succ (ih hlt)

theorem ofGroups_lt {fuel r : Nat} : ofGroups (groups fuel r) < 2 ^ (16 * (groups fuel r).length) := by
  induction fuel generalizing r with
  | zero => simp [groups, ofGroups]
  | succ fuel ih =>
      rw [groups]
      split
      · simp [ofGroups]
      · show r % 2 ^ 16 + 2 ^ 16 * ofGroups (groups fuel (r / 2 ^ 16)) < _
        rw [List.length_cons, Nat.mul_succ, pow_add]
        have hlow := Nat.mod_lt r (by decide : 2 ^ 16 > 0)
        have hrest := ih (r := r / 2 ^ 16)
        calc r % 2 ^ 16 + 2 ^ 16 * ofGroups (groups fuel (r / 2 ^ 16))
            < 2 ^ 16 * (ofGroups (groups fuel (r / 2 ^ 16)) + 1) := by omega
          _ ≤ 2 ^ 16 * 2 ^ (16 * (groups fuel (r / 2 ^ 16)).length) := Nat.mul_le_mul_left _ hrest
          _ = _ := mul_comm _ _

/-- A group with the colon behind it. -/
def groupText (g : Nat) : Text := Nat.toDigits 16 g ++ [':']

/-- The groups that are written, the first one first. -/
def written (fuel r : Nat) : List Nat := ((groups fuel r).dropWhile (· == 0)).reverse

theorem toNat_part (r : Nat) : ((r : Int) % 0x10000).toNat = r % 2 ^ 16 := by omega

theorem toNat_shift (r : Nat) : (r : Int) / 2 ^ 16 = ((r / 2 ^ 16 : Nat) : Int) := by omega

theorem ipv6Groups_some (fuel r : Nat) (t : Text) :
    ipv6Groups fuel r false (some t) = some ((groups fuel r).reverse.flatMap groupText ++ t) := by
  induction fuel generalizing r t with
  | zero => rfl
  | succ fuel ih =>
      rw [ipv6Groups, groups]
      by_cases hr : r = 0
      · subst hr
        rfl
      · rw [if_pos (by omega), if_neg hr, toNat_part, toNat_shift]
        simp only [Option.isSome_some, Bool.true_or, if_true, Bool.false_eq_true, if_false,
          Option.getD_some]
        rw [ih, List.reverse_cons, List.flatMap_append]
        simp [groupText]

theorem ipv6Groups_none (fuel r : Nat) :
    ipv6Groups fuel r false none =
      if written fuel r = [] then none else some ((written fuel r).flatMap groupText ++ [':']) := by
  induction fuel generalizing r with
  | zero => rfl
  | succ fuel ih =>
      rw [ipv6Groups, written, groups]
      by_cases hr : r = 0
      · subst hr
        rfl
      · rw [if_pos (by omega), if_neg hr, toNat_part, toNat_shift]
        by_cases hg : r % 2 ^ 16 = 0
        · rw [hg]
          simp only [Option.isSome_none, bne_self_eq_false, Bool.or_self, Bool.false_eq_true,
            if_false, List.dropWhile_cons, beq_self_eq_true, if_true]
          exact ih _
        · simp only [Option.isSome_none, Bool.false_or, bne_iff_ne, ne_eq, hg, not_false_eq_true,
            if_true, Bool.false_eq_true, if_false, Option.getD_none, List.dropWhile_cons,
            beq_iff_eq]
          rw [ipv6Groups_some]
          simp [groupText]

theorem hexGroups_snoc (gs : List Nat) (g : Nat) :
    hexGroups (gs ++ [g]) = gs.flatMap groupText ++ Nat.toDigits 16 g := by
  induction gs with
  | nil => simp [hexGroups]
  | cons g' gs ih =>
      have hne : (gs ++ [g]).map (Nat.toDigits 16) ≠ [] := by simp
      rw [hexGroups, List.cons_append, List.map_cons, List.intercalate_cons_of_ne_nil hne,
        ← hexGroups, ih]
      simp [groupText]

theorem flatMap_groupText {gs : List Nat} (h : gs ≠ []) :
    gs.flatMap groupText = hexGroups gs ++ [':'] := by
  rw [← List.dropLast_append_getLast h, hexGroups_snoc, List.flatMap_append]
  simp [groupText]

theorem hexGroups_inj {gs gs' : List Nat} (h : hexGroups gs = hexGroups gs') : gs = gs' := by
  have hparts : ∀ gs : List Nat, ∀ t ∈ gs.map (Nat.toDigits 16), t ≠ [] ∧ ':' ∉ t := by
    intro gs t ht
    obtain ⟨g, -, rfl⟩ := List.mem_map.1 ht
    exact ⟨Nat.toDigits_ne_nil, fun hc => absurd (mem_toDigits hc) (by decide)⟩
  have hmap := intercalate_inj (hparts gs) (hparts gs') h
  exact (List.map_injective_iff.2 fun m n => toDigits_inj (by omega) (by omega)) hmap

/-- The text of an IPv6 address: its groups from the first to the last that is not zero, and two
colons for zero groups at the end. -/
theorem getIPv6Address_eq {r : Nat} (h : a.netAddress = r) :
    a.getIPv6Address = hexGroups (written (r.log2 / 16 + 1) r) ++
      if r % 2 ^ 16 = 0 then [':', ':'] else [] := by
  rw [getIPv6Address]
  rw [h, Int.toNat_natCast, ipv6Groups, written, groups]
  by_cases hr : r = 0
  · subst hr
    rfl
  · rw [if_pos (by omega), if_neg hr, toNat_part, toNat_shift]
    by_cases hg : r % 2 ^ 16 = 0
    · simp only [hg, Option.isSome_none, bne_self_eq_false, Bool.or_self, Bool.false_eq_true,
        if_false, List.dropWhile_cons, beq_self_eq_true, if_true]
      rw [ipv6Groups_none, ← written]
      split
      · rename_i hnil
        rw [hnil]
        rfl
      · rename_i hne
        rw [flatMap_groupText hne]
        simp
    · simp only [hg, Option.isSome_none, Bool.false_or, bne_iff_ne, ne_eq, not_false_eq_true,
        if_true, if_false, List.dropWhile_cons, beq_iff_eq]
      rw [ipv6Groups_some, List.reverse_cons, hexGroups_snoc]
      simp

theorem hexGroups_getLast? {gs : List Nat} : (hexGroups gs).getLast? ≠ some ':' := by
  rcases gs.eq_nil_or_concat with rfl | ⟨gs, g, rfl⟩
  · simp [hexGroups]
  · intro hlast
    rw [List.concat_eq_append, hexGroups_snoc, List.getLast?_append_of_ne_nil _ Nat.toDigits_ne_nil]
      at hlast
    exact absurd (mem_toDigits (List.mem_of_getLast? hlast)) (by decide)

/-- The number behind the written groups, when there are eight groups or the last one is
written. -/
theorem eq_of_written {r : Nat} (hlt : r < 2 ^ 128)
    (hends : r = 0 ∨ 2 ^ 112 ≤ r ∨ r % 2 ^ 16 ≠ 0) :
    r = (if r % 2 ^ 16 = 0 then 2 ^ (16 * (8 - (written (r.log2 / 16 + 1) r).length)) else 1) *
      ofGroups (written (r.log2 / 16 + 1) r).reverse := by
  have hfuel : r < 2 ^ (16 * (r.log2 / 16 + 1)) :=
    Nat.lt_log2_self.trans_le (Nat.pow_le_pow_right (by omega) (by omega))
  have hvalue := ofGroups_groups hfuel
  rw [written, List.reverse_reverse, List.length_reverse]
  split
  · rename_i hg
    rcases hends with rfl | hlow | hne
    · rfl
    · have hlen : (groups (r.log2 / 16 + 1) r).length = 8 := by
        have hle : (groups (r.log2 / 16 + 1) r).length ≤ 8 := length_groups_le hlt
        by_contra hne
        have hlt' : ofGroups (groups (r.log2 / 16 + 1) r) <
            2 ^ (16 * (groups (r.log2 / 16 + 1) r).length) := ofGroups_lt
        rw [hvalue] at hlt'
        have : 2 ^ (16 * (groups (r.log2 / 16 + 1) r).length) ≤ 2 ^ 112 :=
          Nat.pow_le_pow_right (by omega) (by omega)
        omega
      generalize groups (r.log2 / 16 + 1) r = gs at hvalue hlen
      have hzeros : gs.takeWhile (· == 0) = List.replicate (gs.takeWhile (· == 0)).length 0 :=
        List.eq_replicate_of_mem fun g hg =>
          beq_iff_eq.1 (List.all_eq_true.1 List.all_takeWhile g hg)
      have hparts : gs.takeWhile (· == 0) ++ gs.dropWhile (· == 0) = gs :=
        List.takeWhile_append_dropWhile
      have hcount := congrArg List.length hparts
      rw [List.length_append, hlen] at hcount
      rw [← hvalue, ← hparts, hzeros, ofGroups_zeros, ← hzeros, hparts]
      congr 3
      omega
    · exact absurd hg hne
  · rename_i hg
    have hdrop : (groups (r.log2 / 16 + 1) r).dropWhile (· == 0) = groups (r.log2 / 16 + 1) r := by
      have hr : r ≠ 0 := by
        rintro rfl
        exact hg rfl
      rw [groups, if_neg hr, List.dropWhile_cons, if_neg (by simpa using hg)]
    rw [hdrop, hvalue, one_mul]

/-- The text of an IPv6 address can be read back when its groups are known to be eight, or when the
last one is written. -/
theorem getIPv6Address_inj (ha : Plain6 a) (hb : Plain6 b)
    (h : a.getIPv6Address = b.getIPv6Address) : a.netAddress = b.netAddress := by
  obtain ⟨m, hm⟩ := Int.eq_ofNat_of_zero_le ha.address.1
  obtain ⟨n, hn⟩ := Int.eq_ofNat_of_zero_le hb.address.1
  have hma := ha.address.2
  have hnb := hb.address.2
  have hma' := ha.ends
  have hnb' := hb.ends
  rw [hm] at hma hma' ⊢
  rw [hn] at hnb hnb' ⊢
  have hm' := eq_of_written (r := m) (by omega) (by omega)
  have hn' := eq_of_written (r := n) (by omega) (by omega)
  rw [getIPv6Address_eq hm, getIPv6Address_eq hn] at h
  have hlast : ∀ r r' : Nat, (r % 2 ^ 16 = 0) → ¬ (r' % 2 ^ 16 = 0) →
      hexGroups (written (r.log2 / 16 + 1) r) ++ [':', ':'] ≠
        hexGroups (written (r'.log2 / 16 + 1) r') := by
    intro r r' _ _ heq
    have hlast : (hexGroups (written (r'.log2 / 16 + 1) r')).getLast? ≠ some ':' :=
      hexGroups_getLast?
    refine hlast ?_
    rw [← heq]
    simp
  by_cases hgm : m % 2 ^ 16 = 0
  · by_cases hgn : n % 2 ^ 16 = 0
    · rw [if_pos hgm, if_pos hgn] at h
      have hw := hexGroups_inj (List.append_cancel_right h)
      rw [if_pos hgm, hw] at hm'
      rw [if_pos hgn] at hn'
      rw [hm', ← hn']
    · rw [if_pos hgm, if_neg hgn, List.append_nil] at h
      exact absurd h (hlast m n hgm hgn)
  · by_cases hgn : n % 2 ^ 16 = 0
    · rw [if_neg hgm, if_pos hgn, List.append_nil] at h
      exact absurd h.symm (hlast n m hgn hgm)
    · rw [if_neg hgm, if_neg hgn, List.append_nil, List.append_nil] at h
      rw [if_neg hgm, hexGroups_inj h] at hm'
      rw [if_neg hgn] at hn'
      rw [hm', ← hn']

end IpAddress

end PortVpn.Net
