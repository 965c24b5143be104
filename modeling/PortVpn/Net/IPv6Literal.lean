import PortVpn.Lib.IPv6Text
import PortVpn.Net.NetworkText

/-!
# IPv6 addresses as literals

`ipAddress.getIPv6Address` writes an address for `VpnService.Builder.addRoute`, which reads it as an
IPv6 literal. It never writes zero groups at the front, and it writes a pair of colons only for zero
groups at the end. So the text is the address that was meant when it is zero or when its first group
is not; every other text is no literal, or that of an address further up.
-/

set_option autoImplicit false

namespace PortVpn.Net

open PortVpn.Lib

namespace IpAddress

variable {a : IpAddress}

theorem lt_of_mem_groups {fuel r g : Nat} (h : g ∈ groups fuel r) : g < 2 ^ 16 := by
  induction fuel generalizing r with
  | zero => exact absurd h List.not_mem_nil
  | succ fuel ih =>
      rw [groups] at h
      split at h
      · exact absurd h List.not_mem_nil
      · rcases List.mem_cons.1 h with rfl | h
        · exact Nat.mod_lt r (by decide)
        · exact ih h

theorem lt_of_mem_written {fuel r g : Nat} (h : g ∈ written fuel r) : g < 2 ^ 16 :=
  lt_of_mem_groups ((List.dropWhile_sublist _).subset (List.mem_reverse.1 h))

theorem value_eq_ofGroups (gs : List Nat) : IPv6Text.value gs = ofGroups gs.reverse := by
  rw [IPv6Text.value, ofGroups, List.foldr_reverse]
  congr 1
  funext n g
  exact Nat.add_comm _ _

/-- The address of an IPv6 network has the value of its written groups, followed by the zero groups
that are not written. -/
theorem written_value {r : Nat} :
    ∃ zeros, zeros + (written (r.log2 / 16 + 1) r).length = (groups (r.log2 / 16 + 1) r).length ∧
      r = 2 ^ (16 * zeros) * IPv6Text.value (written (r.log2 / 16 + 1) r) := by
  have hfuel : r < 2 ^ (16 * (r.log2 / 16 + 1)) :=
    Nat.lt_log2_self.trans_le (Nat.pow_le_pow_right (by omega) (by omega))
  have hvalue := ofGroups_groups hfuel
  rw [value_eq_ofGroups, written, List.reverse_reverse, List.length_reverse]
  generalize groups (r.log2 / 16 + 1) r = gs at hvalue
  have hzeros : gs.takeWhile (· == 0) = List.replicate (gs.takeWhile (· == 0)).length 0 :=
    List.eq_replicate_of_mem fun g hg =>
      beq_iff_eq.1 (List.all_eq_true.1 List.all_takeWhile g hg)
  have hparts : gs.takeWhile (· == 0) ++ gs.dropWhile (· == 0) = gs :=
    List.takeWhile_append_dropWhile
  refine ⟨(gs.takeWhile (· == 0)).length, ?_, ?_⟩
  · rw [← List.length_append, hparts]
  · rw [← ofGroups_zeros, ← hzeros, hparts, hvalue]

/-- No group is left out at the end when the last one is not zero. -/
theorem written_length {r : Nat} (h : r % 2 ^ 16 ≠ 0) :
    (written (r.log2 / 16 + 1) r).length = (groups (r.log2 / 16 + 1) r).length := by
  have hr : r ≠ 0 := by
    rintro rfl
    exact h rfl
  rw [written, List.length_reverse, groups, if_neg hr, List.dropWhile_cons,
    if_neg (by simpa using h)]

/-- An address has eight groups when the first one is not zero, and fewer otherwise. -/
theorem length_groups_eq_iff {r : Nat} (h : r < 2 ^ 128) :
    (groups (r.log2 / 16 + 1) r).length = 8 ↔ 2 ^ 112 ≤ r := by
  have hfuel : r < 2 ^ (16 * (r.log2 / 16 + 1)) :=
    Nat.lt_log2_self.trans_le (Nat.pow_le_pow_right (by omega) (by omega))
  have hlt : ofGroups (groups (r.log2 / 16 + 1) r) <
      2 ^ (16 * (groups (r.log2 / 16 + 1) r).length) := ofGroups_lt
  rw [ofGroups_groups hfuel] at hlt
  constructor
  · intro hlen
    by_contra hlow
    have : (groups (r.log2 / 16 + 1) r).length ≤ 7 := length_groups_le (by omega)
    omega
  · intro hhigh
    have hle : (groups (r.log2 / 16 + 1) r).length ≤ 8 := length_groups_le h
    by_contra hne
    have : 2 ^ (16 * (groups (r.log2 / 16 + 1) r).length) ≤ 2 ^ 112 :=
      Nat.pow_le_pow_right (by omega) (by omega)
    omega

/-- A text without a pair of colons is a literal only when all eight groups are written. -/
theorem parse_getIPv6Address_of_last {r : Nat} (h : a.netAddress = r) (hr : r < 2 ^ 128)
    (hlast : r % 2 ^ 16 ≠ 0) :
    IPv6Text.parse a.getIPv6Address = if 2 ^ 112 ≤ r then some r else none := by
  have hne : written (r.log2 / 16 + 1) r ≠ [] := by
    intro hnil
    have hlen := written_length hlast
    rw [hnil, groups, if_neg (by rintro rfl; exact hlast rfl)] at hlen
    exact Nat.succ_ne_zero _ hlen.symm
  have hvalue : IPv6Text.value (written (r.log2 / 16 + 1) r) = r := by
    obtain ⟨zeros, hlen, hr⟩ := written_value (r := r)
    have hzeros : zeros = 0 := by have := written_length hlast; omega
    rw [hzeros, Nat.mul_zero, pow_zero, one_mul] at hr
    exact hr.symm
  rw [getIPv6Address_eq h, if_neg hlast, List.append_nil]
  refine (IPv6Text.parse_hexGroups (fun g => lt_of_mem_written) hne).trans ?_
  rw [hvalue, written_length hlast]
  simp only [length_groups_eq_iff hr]

/-- Groups are left out at the end when the last one is zero. -/
theorem written_length_lt {r : Nat} (h : r % 2 ^ 16 = 0) (hr : r < 2 ^ 128) :
    (written (r.log2 / 16 + 1) r).length < 8 := by
  have hgroups : (groups (r.log2 / 16 + 1) r).length ≤ 8 := length_groups_le hr
  rw [written, List.length_reverse]
  rw [groups] at hgroups ⊢
  split at hgroups
  · rename_i hzero
    rw [if_pos hzero]
    exact Nat.succ_pos 7
  · rename_i hne
    rw [if_neg hne, h, List.dropWhile_cons, if_pos (beq_self_eq_true 0)]
    have hle := ((groups (r.log2 / 16) (r / 2 ^ 16)).dropWhile_sublist (· == 0)).length_le
    rw [List.length_cons] at hgroups
    omega

/-- A text that ends in a pair of colons is a literal, but of the address that has its zero groups
all at the end. -/
theorem parse_getIPv6Address_of_zero {r : Nat} (h : a.netAddress = r) (hr : r < 2 ^ 128)
    (hlast : r % 2 ^ 16 = 0) :
    IPv6Text.parse a.getIPv6Address =
      some (2 ^ (16 * (8 - (groups (r.log2 / 16 + 1) r).length)) * r) := by
  have hgroups : (groups (r.log2 / 16 + 1) r).length ≤ 8 := length_groups_le hr
  obtain ⟨zeros, hlen, hvalue⟩ := written_value (r := r)
  rw [getIPv6Address_eq h, if_pos hlast]
  refine (IPv6Text.parse_hexGroups_colons (fun g => lt_of_mem_written)).trans ?_
  rw [if_pos (written_length_lt hlast hr)]
  have hexp : 16 * (8 - (written (r.log2 / 16 + 1) r).length) =
      16 * (8 - (groups (r.log2 / 16 + 1) r).length) + 16 * zeros := by omega
  rw [hexp, pow_add, mul_assoc, ← hvalue]

/-- **The text of an IPv6 address is a literal that reads back as the address** exactly when the
address is zero or its first group is not zero. -/
theorem getIPv6Address_faithful_iff {v : Int} (hv : 0 ≤ v ∧ v < 2 ^ 128) (h : a.netAddress = v) :
    (IPv6Text.parse a.getIPv6Address).map Int.ofNat = some v ↔ v = 0 ∨ 2 ^ 112 ≤ v := by
  obtain ⟨r, rfl⟩ := Int.eq_ofNat_of_zero_le hv.1
  have hr : r < 2 ^ 128 := by omega
  by_cases hlast : r % 2 ^ 16 = 0
  · rw [parse_getIPv6Address_of_zero h hr hlast]
    have hlen := length_groups_eq_iff hr
    have hgroups : (groups (r.log2 / 16 + 1) r).length ≤ 8 := length_groups_le hr
    have height : 2 ^ 112 ≤ (r : Int) ↔ 2 ^ 112 ≤ r := by omega
    rw [height, ← hlen, Option.map_some, Option.some.injEq, Int.ofNat_eq_natCast, Int.natCast_inj,
      Int.natCast_eq_zero]
    constructor
    · intro heq
      by_contra hnot
      obtain ⟨hzero, hshort⟩ := not_or.1 hnot
      have hmoved : 2 ^ 1 ≤ 2 ^ (16 * (8 - (groups (r.log2 / 16 + 1) r).length)) :=
        Nat.pow_le_pow_right (by omega) (by omega)
      have hmore := Nat.mul_le_mul_right r hmoved
      omega
    · rintro (rfl | hfull)
      · rfl
      · rw [hfull, Nat.sub_self, Nat.mul_zero, pow_zero, one_mul]
  · rw [parse_getIPv6Address_of_last h hr hlast]
    split
    · rename_i hhigh
      exact iff_of_true rfl (.inr (by omega))
    · rename_i hlow
      refine iff_of_false (by simp) ?_
      omega

theorem getIPv6Address_faithful_iff_documentation :
    (IPv6Text.parse (getIPv6Address ⟨0x20010db8 * 2 ^ 96 + 1, 64, true, false⟩)).map Int.ofNat =
      some (0x20010db8 * 2 ^ 96 + 1) :=
  (getIPv6Address_faithful_iff ⟨by decide, by decide⟩ rfl).2 (.inr (by decide))

/-- The address `::1` is written as `1`, which is no literal, and the address of the network
`::1:0/112` is written as `1::`, the literal of another address. -/
theorem getIPv6Address_counterexample :
    getIPv6Address (ofInet6 (List.replicate 15 0 ++ [1]) 128 true) = "1".toList ∧
      IPv6Text.parse "1".toList = none ∧
    getIPv6Address (ofInet6 (List.replicate 13 0 ++ [1, 0, 0]) 112 true) = "1::".toList ∧
      IPv6Text.parse "1::".toList = some (2 ^ 112) ∧
    ¬ ∀ a : IpAddress, 0 ≤ a.netAddress → a.netAddress < 2 ^ 128 →
      (IPv6Text.parse a.getIPv6Address).map Int.ofNat = some a.netAddress := by
  refine ⟨by decide +kernel, by decide +kernel, by decide +kernel, by decide +kernel, ?_⟩
  intro hall
  have hone := hall ⟨1, 128, true, false⟩ (by decide) (by decide)
  exact absurd hone (by decide +kernel)

end IpAddress

end PortVpn.Net
