import PortVpn.Lib.JavaInt
import PortVpn.Lib.UniqueReading
import Mathlib.Tactic.NormNum
import Mathlib.Tactic.Positivity

/-!
# Addresses with a prefix length

`CIDRIP` keeps an IPv4 address as the text it was given and the length of its prefix, which it
reads off a netmask. A value that Java computes in a `long` is an integer; `none` stands for an
exception.
-/

set_option autoImplicit false

namespace PortVpn.Net

open PortVpn.Lib

/-- `CIDRIP`. -/
structure CIDRIP where
  mIp : Text
  len : Int
  deriving DecidableEq, Repr

namespace CIDRIP

/-- The static `CIDRIP.getInt`. -/
def getIntOf (ipaddr : Text) : Option Int := do
  let ipt := split (· == '.') ipaddr
  let a ← (← ipt[0]?) |> parseLong
  let b ← (← ipt[1]?) |> parseInt
  let c ← (← ipt[2]?) |> parseInt
  let d ← (← ipt[3]?) |> parseInt
  some (wrap64 (wrap64 (a * 2 ^ 24) + wrap32 (b * 2 ^ 16) + wrap32 (c * 2 ^ 8) + d))

/-- The loop of the constructor: how often the netmask is halved until it is odd, and what is left
of it. The loop has no exit for zero. -/
def lenZeros : Nat → Int → Option (Nat × Int)
  | 0, _ => none
  | fuel + 1, netmask =>
      if netmask % 2 = 0 then (lenZeros fuel (netmask / 2)).map fun r => (r.1 + 1, r.2)
      else some (0, netmask)

/-- The constructor `CIDRIP(ip, mask)`: a netmask that is not a row of ones followed by a row of
zeros counts as the length 32. -/
def ofMask (ip mask : Text) : Option CIDRIP := do
  let netmask ← getIntOf mask
  -- the 33rd bit ends the loop
  let r ← lenZeros 64 (wrap64 (netmask + 2 ^ 32))
  some ⟨ip, if r.2 ≠ 0x1ffffffff / 2 ^ r.1 then 32 else 32 - r.1⟩

/-- `CIDRIP.getInt`. -/
def getInt (c : CIDRIP) : Option Int := getIntOf c.mIp

/-- `CIDRIP.toString`. -/
def toText (c : CIDRIP) : Text := c.mIp ++ '/' :: decimal c.len

/-- The bytes of a `long` in dotted notation. The mask of the first is a negative `int`, so that it
keeps all higher bits. -/
def dotted (l : LocaleDigits) (ip : Int) : Text :=
  l.decimal (andLong ip (wrap32 0xff000000) / 2 ^ 24) ++
    '.' :: l.decimal (andLong ip 0xff0000 / 2 ^ 16) ++
    '.' :: l.decimal (andLong ip 0xff00 / 2 ^ 8) ++ '.' :: l.decimal (andLong ip 0xff)

/-- `CIDRIP.normalise`: whether the address had bits outside its prefix, and the address without
them. The format names no locale, so that it writes in the default one. -/
def normalise (l : LocaleDigits) (c : CIDRIP) : Option (Bool × CIDRIP) := do
  let ip ← c.getInt
  let newip := andLong ip (wrap64 (0xffffffff * 2 ^ (32 - c.len).toNat))
  some (if newip ≠ ip then (true, { c with mIp := dotted l newip }) else (false, c))

example : (ofMask "10.1.2.3".toList "255.255.240.0".toList).map toText =
    some "10.1.2.3/20".toList := by decide

example : ((normalise .us ⟨"10.1.2.3".toList, 20⟩).map fun r => r.2.mIp) =
    some "10.1.0.0".toList := by decide

/-! ## The length -/

/-- A row of ones in the upper bits of an address. -/
def maskOf (n : Nat) : Int := 2 ^ 32 - 2 ^ (32 - n)

/-- The length of a contiguous netmask is the number of its ones. -/
theorem ofMask_contiguous {mask : Text} {n : Nat} (hn : n ≤ 32)
    (h : getIntOf mask = some (maskOf n)) (ip : Text) : ofMask ip mask = some ⟨ip, n⟩ := by
  have hlen : ∀ n ≤ 32, (lenZeros 64 (wrap64 (maskOf n + 2 ^ 32))).map
      (fun r => if r.2 ≠ 0x1ffffffff / 2 ^ r.1 then (32 : Int) else 32 - r.1) = some (n : Int) := by
    decide +kernel
  have hn := hlen n hn
  rw [ofMask, h]
  simp only [Option.bind_eq_bind, Option.bind_some]
  cases hz : lenZeros 64 (wrap64 (maskOf n + 2 ^ 32)) with
  | none => rw [hz] at hn; exact nomatch hn
  | some r =>
      rw [hz] at hn
      simp only [Option.map_some, Option.some.injEq] at hn
      simp only [Option.bind_some, hn]

/-- What is left after the halvings is odd, so that at most 32 of them count. -/
theorem lenZeros_odd {fuel : Nat} {netmask : Int} {r : Nat × Int}
    (h : lenZeros fuel netmask = some r) : r.2 % 2 ≠ 0 := by
  induction fuel generalizing netmask r with
  | zero => exact nomatch h
  | succ fuel ih =>
      rw [lenZeros] at h
      split at h
      · obtain ⟨r, hr, rfl⟩ := Option.map_eq_some_iff.1 h
        show r.2 % 2 ≠ 0
        exact ih hr
      · cases h
        assumption

/-- A length lies between 0 and 32. -/
theorem ofMask_len {ip mask : Text} {c : CIDRIP} (h : ofMask ip mask = some c) :
    c.mIp = ip ∧ ∃ n : Nat, n ≤ 32 ∧ c.len = n := by
  rw [ofMask] at h
  simp only [Option.bind_eq_bind, Option.bind_eq_some_iff] at h
  obtain ⟨netmask, -, r, hr, h⟩ := h
  cases h
  refine ⟨rfl, ?_⟩
  by_cases hz : r.1 ≤ 32
  · simp only
    split
    · exact ⟨32, by omega, rfl⟩
    · exact ⟨32 - r.1, by omega, by omega⟩
  · have hodd := lenZeros_odd hr
    have hzero : (0x1ffffffff : Int) / 2 ^ r.1 = 0 := by
      refine Int.ediv_eq_zero_of_lt (by omega) ?_
      calc (0x1ffffffff : Int) < 2 ^ 33 := by norm_num
        _ ≤ 2 ^ r.1 := by
          exact_mod_cast Nat.pow_le_pow_right (by omega) (by omega : 33 ≤ r.1)
    have hne : r.2 ≠ 0x1ffffffff / 2 ^ r.1 := by
      rw [hzero]
      omega
    exact ⟨32, by omega, by simp [hne]⟩

theorem lenZeros_eq {fuel : Nat} {netmask : Int} {r : Nat × Int}
    (h : lenZeros fuel netmask = some r) : netmask = 2 ^ r.1 * r.2 := by
  induction fuel generalizing netmask r with
  | zero => cases h
  | succ fuel ih =>
      rw [lenZeros] at h
      split at h
      next heven =>
        obtain ⟨r, hr, rfl⟩ := Option.map_eq_some_iff.1 h
        have hhalf := ih hr
        dsimp only
        rw [Int.pow_succ, Int.mul_comm (2 ^ r.1) 2, Int.mul_assoc, ← hhalf]
        omega
      next =>
        obtain rfl := Option.some.inj h
        dsimp only
        omega

/-- A netmask that is not a row of ones followed by a row of zeros counts as the length 32. -/
theorem ofMask_not_contiguous {ip mask : Text} {v : Int} {c : CIDRIP}
    (h : getIntOf mask = some v) (hlow : 0 ≤ v) (hhigh : v < 2 ^ 32)
    (hnot : ∀ n ≤ 32, v ≠ maskOf n) (hc : ofMask ip mask = some c) : c = ⟨ip, 32⟩ := by
  rw [ofMask, h] at hc
  simp only [Option.bind_eq_bind, Option.bind_some, Option.bind_eq_some_iff] at hc
  obtain ⟨r, hr, hc⟩ := hc
  obtain rfl := Option.some.inj hc
  by_cases hones : r.2 = 0x1ffffffff / 2 ^ r.1
  · exfalso
    have hodd := lenZeros_odd hr
    have hvalue := lenZeros_eq hr
    rw [wrap64_eq_self (by omega) (by omega), hones] at hvalue
    have hk : r.1 ≤ 32 := by
      by_contra hcon
      have hzero : (0x1ffffffff : Int) / 2 ^ r.1 = 0 := by
        apply Int.ediv_eq_zero_of_lt (by omega)
        calc (0x1ffffffff : Int) < 2 ^ 33 := by norm_num
          _ ≤ 2 ^ r.1 := by
            exact_mod_cast Nat.pow_le_pow_right (by omega) (by omega : 33 ≤ r.1)
      rw [hones, hzero] at hodd
      exact hodd rfl
    -- the ones fill all bits from the last zero on
    have hrow : ∀ k ≤ 32, (2 : Int) ^ k * (0x1ffffffff / 2 ^ k) = maskOf (32 - k) + 2 ^ 32 := by
      decide +kernel
    rw [hrow _ hk] at hvalue
    exact hnot (32 - r.1) (by omega) (by omega)
  · rw [if_pos hones]

/-! ## The values without a length -/

/-- The loop ends for a value other than zero. -/
theorem lenZeros_isSome {fuel : Nat} {netmask : Int} (h0 : netmask ≠ 0)
    (hlow : -2 ^ fuel < netmask) (hhigh : netmask < 2 ^ fuel) :
    (lenZeros fuel netmask).isSome := by
  induction fuel generalizing netmask with
  | zero => omega
  | succ fuel ih =>
      rw [lenZeros]
      split
      · rw [Option.isSome_map]
        rw [Int.pow_succ] at hlow hhigh
        exact ih (by omega) (by omega) (by omega)
      · rfl

/-- A netmask that can be read has a length, unless it cancels the bit that ends the loop. -/
theorem ofMask_isSome {mask : Text} {v : Int} (h : getIntOf mask = some v) (hv : v ≠ -2 ^ 32)
    (ip : Text) : (ofMask ip mask).isSome := by
  have hrange : ∃ w, v = wrap64 w := by
    rw [getIntOf] at h
    simp only [Option.bind_eq_bind, Option.bind_eq_some_iff] at h
    obtain ⟨_, _, _, _, _, _, _, _, _, _, _, _, _, _, _, _, h⟩ := h
    exact ⟨_, (Option.some.inj h).symm⟩
  obtain ⟨w, rfl⟩ := hrange
  have hw := wrap64_range w
  have hr := wrap64_range (wrap64 w + 2 ^ 32)
  have hne : wrap64 (wrap64 w + 2 ^ 32) ≠ 0 := by
    intro hzero
    have := wrap64_eq_zero hzero
    omega
  have hsome : (lenZeros 64 (wrap64 (wrap64 w + 2 ^ 32))).isSome :=
    lenZeros_isSome hne (by omega) (by omega)
  obtain ⟨r, hz⟩ := Option.isSome_iff_exists.1 hsome
  rw [ofMask, h]
  simp only [Option.bind_eq_bind, Option.bind_some, hz, Option.isSome_some]

theorem ofMask_endless (ip : Text) {mask : Text} (h : getIntOf mask = some (-2 ^ 32)) :
    ofMask ip mask = none := by
  have hz : lenZeros 64 (wrap64 (-2 ^ 32 + 2 ^ 32)) = none := by decide +kernel
  rw [ofMask, h]
  simp only [Option.bind_eq_bind, Option.bind_some, hz, Option.bind_none]

/-! ## When the constructor ends -/

/-- The fields of a netmask cancel the bit that is added to end the loop: their sum, with the last
three of them shifted as an `int`, is `-2 ^ 32` up to a multiple of `2 ^ 64`. -/
def CancelsGuard (mask : Text) : Prop :=
  ∃ a b c d : Int, (split (· == '.') mask)[0]?.bind parseLong = some a ∧
    (split (· == '.') mask)[1]?.bind parseInt = some b ∧
    (split (· == '.') mask)[2]?.bind parseInt = some c ∧
    (split (· == '.') mask)[3]?.bind parseInt = some d ∧
    (2 : Int) ^ 64 ∣ a * 2 ^ 24 + wrap32 (b * 2 ^ 16) + wrap32 (c * 2 ^ 8) + d + 2 ^ 32

/-- An address is read exactly if its four fields are. -/
theorem getIntOf_eq_some_iff {ipaddr : Text} {v : Int} :
    getIntOf ipaddr = some v ↔ ∃ a b c d : Int,
      (split (· == '.') ipaddr)[0]?.bind parseLong = some a ∧
      (split (· == '.') ipaddr)[1]?.bind parseInt = some b ∧
      (split (· == '.') ipaddr)[2]?.bind parseInt = some c ∧
      (split (· == '.') ipaddr)[3]?.bind parseInt = some d ∧
      wrap64 (wrap64 (a * 2 ^ 24) + wrap32 (b * 2 ^ 16) + wrap32 (c * 2 ^ 8) + d) = v := by
  rw [getIntOf]
  simp only [Option.bind_eq_bind, Option.bind_eq_some_iff, Option.some.injEq]
  constructor
  · rintro ⟨ta, hta, a, ha, tb, htb, b, hb, tc, htc, c, hc, td, htd, d, hd, hv⟩
    exact ⟨a, b, c, d, ⟨ta, hta, ha⟩, ⟨tb, htb, hb⟩, ⟨tc, htc, hc⟩, ⟨td, htd, hd⟩, hv⟩
  · rintro ⟨a, b, c, d, ⟨ta, hta, ha⟩, ⟨tb, htb, hb⟩, ⟨tc, htc, hc⟩, ⟨td, htd, hd⟩, hv⟩
    exact ⟨ta, hta, a, ha, tb, htb, b, hb, tc, htc, c, hc, td, htd, d, hd, hv⟩

/-- The only value that cancels the bit. -/
theorem getIntOf_eq_guard_iff (mask : Text) :
    getIntOf mask = some (-2 ^ 32) ↔ CancelsGuard mask := by
  rw [getIntOf_eq_some_iff]
  -- the wrap-around of the first field is taken again with that of the sum
  have hsum : ∀ x y z w : Int, wrap64 (wrap64 x + y + z + w) = -2 ^ 32 ↔
      (2 : Int) ^ 64 ∣ x + y + z + w + 2 ^ 32 := by
    intro x y z w
    have hassoc : wrap64 x + y + z + w = wrap64 x + (y + z + w) := by omega
    rw [hassoc, wrap64, wrap64, Int.bmod_add_bmod]
    constructor
    · intro h
      have hdvd := Int.bmod_eq_self_sub_mul_bdiv (x + (y + z + w)) (2 ^ 64)
      rw [h] at hdvd
      refine ⟨(x + (y + z + w)).bdiv (2 ^ 64), ?_⟩
      omega
    · rintro ⟨k, hk⟩
      have hx : x + (y + z + w) = -2 ^ 32 + 2 ^ 64 * k := by omega
      have hmul : ((2 ^ 64 : Nat) : Int) * k = 2 ^ 64 * k := rfl
      rw [hx, ← hmul, Int.add_mul_bmod_self_left]
      decide
  simp only [hsum]
  rfl

/-- Zero is halved for ever. -/
theorem lenZeros_zero (fuel : Nat) : lenZeros fuel 0 = none := by
  induction fuel with
  | zero => rfl
  | succ fuel ih =>
      rw [lenZeros, if_pos (by decide), show (0 : Int) / 2 = 0 from rfl, ih]
      rfl

/-- **When the constructor ends.** Where the netmask can be read, the loop stops and the length lies
between 0 and 32, exactly if the fields do not cancel the bit that ends the loop. -/
theorem ofMask_ends_iff (ip mask : Text) :
    (∀ netmask, getIntOf mask = some netmask →
      (∃ fuel, (lenZeros fuel (wrap64 (netmask + 2 ^ 32))).isSome) ∧
        ∃ c, ofMask ip mask = some c ∧ 0 ≤ c.len ∧ c.len ≤ 32) ↔
      ¬ CancelsGuard mask := by
  rw [← getIntOf_eq_guard_iff]
  constructor
  · intro h hguard
    obtain ⟨⟨fuel, hsome⟩, -⟩ := h _ hguard
    have hwrap : wrap64 (-2 ^ 32 + 2 ^ 32) = 0 := by decide
    rw [hwrap, lenZeros_zero] at hsome
    cases hsome
  · intro hguard netmask hnetmask
    have hne : netmask ≠ -2 ^ 32 := by
      rintro rfl
      exact hguard hnetmask
    obtain ⟨c, hc⟩ := Option.isSome_iff_exists.1 (ofMask_isSome hnetmask hne ip)
    obtain ⟨-, n, hn, hlen⟩ := ofMask_len hc
    refine ⟨⟨64, ?_⟩, c, hc, by omega, by omega⟩
    -- the constructor has run the loop
    rw [ofMask] at hc
    simp only [hnetmask, Option.bind_eq_bind, Option.bind_some, Option.bind_eq_some_iff] at hc
    obtain ⟨r, hr, -⟩ := hc
    rw [hr]
    rfl

/-- **A netmask that never ends**: `-256.0.0.0` is `-2 ^ 32`. -/
theorem ofMask_ends_counterexample :
    ∃ mask netmask, getIntOf mask = some netmask ∧
      ∀ fuel, lenZeros fuel (wrap64 (netmask + 2 ^ 32)) = none := by
  refine ⟨"-256.0.0.0".toList, -2 ^ 32, by decide, ?_⟩
  intro fuel
  have hwrap : wrap64 (-2 ^ 32 + 2 ^ 32) = 0 := by decide
  rw [hwrap]
  exact lenZeros_zero fuel

/-! ## Normalised addresses -/

/-- The bytes of a `long`, and what is above them. -/
theorem dotted_eq (l : LocaleDigits) {x : Int} (hlow : -2 ^ 63 ≤ x) (hhigh : x < 2 ^ 63) :
    dotted l x = l.decimal (x / 2 ^ 24) ++ '.' :: (l.decimal (x / 2 ^ 16 % 256) ++ '.' ::
      (l.decimal (x / 2 ^ 8 % 256) ++ '.' :: l.decimal (x % 256))) := by
  have hmask : ∀ (mask : Int) (i j : Nat), mask % 2 ^ 64 = ((2 ^ j - 1) * 2 ^ i : Nat) →
      andLong x mask = wrap64 (((x % 2 ^ 64).toNat / 2 ^ i % 2 ^ j * 2 ^ i : Nat) : Int) := by
    intro mask i j h
    rw [andLong_eq, h, Int.toNat_natCast, and_row]
  have h1 : andLong x (wrap32 0xff000000) / 2 ^ 24 = x / 2 ^ 24 := by
    -- the mask of the first byte is a negative `int`, so that the sign is kept
    rw [hmask _ 24 40 (by decide), wrap64, Int.bmod_def]
    split
    all_goals omega
  have h2 : andLong x 0xff0000 / 2 ^ 16 = x / 2 ^ 16 % 256 := by
    rw [hmask _ 16 8 (by decide), wrap64_eq_self]
    all_goals omega
  have h3 : andLong x 0xff00 / 2 ^ 8 = x / 2 ^ 8 % 256 := by
    rw [hmask _ 8 8 (by decide), wrap64_eq_self]
    all_goals omega
  have h4 : andLong x 0xff = x % 256 := by
    rw [hmask _ 0 8 (by decide), wrap64_eq_self]
    all_goals omega
  rw [dotted, h1, h2, h3, h4]
  simp only [List.append_assoc, List.cons_append]

/-- **Dotted notation is read back**, with the digits of every locale. -/
theorem getIntOf_dotted (l : LocaleDigits) {x : Int} (hlow : -2 ^ 63 ≤ x) (hhigh : x < 2 ^ 63) :
    getIntOf (dotted l x) = some x := by
  have hdots : ∀ (z : Int), ∀ c ∈ l.decimal z, (c == '.') = false := by
    intro z c hc
    obtain ⟨d, hd, rfl⟩ := List.mem_map.1 hc
    rw [beq_eq_false_iff_ne, Ne, l.localize_eq_iff (by decide)]
    rintro rfl
    rcases mem_decimal hd with h | h
    · exact absurd h (by decide)
    · exact absurd h (by decide)
  have hne : l.decimal (x % 256) ≠ [] := by
    rw [LocaleDigits.decimal, Ne, List.map_eq_nil_iff]
    exact decimal_ne_nil _
  have hfirst : parseLong (l.decimal (x / 2 ^ 24)) = some (x / 2 ^ 24) :=
    l.parseSigned_decimal (by omega) (by omega)
  have hbyte : ∀ y : Int, parseInt (l.decimal (y % 256)) = some (y % 256) := by
    intro y
    exact l.parseSigned_decimal (by omega) (by omega)
  rw [dotted_eq l hlow hhigh, getIntOf,
    split_four (hdots _) (hdots _) (hdots _) (hdots _) hne (by decide)]
  simp only [List.getElem?_cons_zero, List.getElem?_cons_succ, Option.bind_eq_bind,
    Option.bind_some, hfirst, hbyte, Option.some.injEq]
  rw [@wrap64_eq_self (x / 2 ^ 24 * 2 ^ 24) (by omega) (by omega),
    @wrap32_eq_self (x / 2 ^ 16 % 256 * 2 ^ 16) (by omega) (by omega),
    @wrap32_eq_self (x / 2 ^ 8 % 256 * 2 ^ 8) (by omega) (by omega),
    wrap64_eq_self (by omega) (by omega)]
  omega

/-- The mask of a prefix clears the bits behind it, for the lengths 0 and 32 as well. -/
theorem andLong_prefix {x : Int} (hlow : 0 ≤ x) (hhigh : x < 2 ^ 32) {n : Nat} (hn : n ≤ 32) :
    andLong x (wrap64 (0xffffffff * 2 ^ (32 - n))) = x / 2 ^ (32 - n) * 2 ^ (32 - n) := by
  have hmask : ∀ k ≤ 32, (wrap64 (0xffffffff * 2 ^ k) % 2 ^ 64).toNat = (2 ^ 32 - 1) * 2 ^ k := by
    decide +kernel
  have hx : (x % 2 ^ 64).toNat = x.toNat := by omega
  have hpos : (0 : Int) < 2 ^ (32 - n) := by positivity
  have hquot : x.toNat / 2 ^ (32 - n) < 2 ^ 32 :=
    lt_of_le_of_lt (Nat.div_le_self _ _) (by omega)
  have hle : x / 2 ^ (32 - n) * 2 ^ (32 - n) ≤ x := Int.ediv_mul_le x hpos.ne'
  have hnonneg : 0 ≤ x / 2 ^ (32 - n) * 2 ^ (32 - n) :=
    Int.mul_nonneg (Int.ediv_nonneg hlow hpos.le) hpos.le
  rw [andLong_eq, hmask _ (by omega), and_row, hx, Nat.mod_eq_of_lt hquot]
  have hcast : ((x.toNat / 2 ^ (32 - n) * 2 ^ (32 - n) : Nat) : Int) =
      x / 2 ^ (32 - n) * 2 ^ (32 - n) := by
    rw [Nat.cast_mul, Int.natCast_ediv, Int.toNat_of_nonneg hlow]
    norm_cast
  rw [hcast, wrap64_eq_self (by omega) (by omega)]

/-- **What `normalise` does** to an address of 32 bits. -/
theorem normalise_eq (l : LocaleDigits) {ip : Text} {x : Int} (hip : getIntOf ip = some x)
    (hlow : 0 ≤ x) (hhigh : x < 2 ^ 32) {n : Nat} (hn : n ≤ 32) :
    normalise l ⟨ip, n⟩ = some (if x / 2 ^ (32 - n) * 2 ^ (32 - n) ≠ x
      then (true, ⟨dotted l (x / 2 ^ (32 - n) * 2 ^ (32 - n)), n⟩) else (false, ⟨ip, n⟩)) := by
  have hlength : ((32 : Int) - (n : Int)).toNat = 32 - n := by omega
  rw [normalise, getInt, hip]
  simp only [Option.bind_eq_bind, Option.bind_some, hlength, andLong_prefix hlow hhigh hn]

/-- **A normalised address has no bits outside its prefix.** -/
theorem normalise_dvd {l : LocaleDigits} {c : CIDRIP} {r : Bool × CIDRIP} (hlow : 0 ≤ c.len)
    (h : c.normalise l = some r) :
    r.2.len = c.len ∧ ∃ n, r.2.getInt = some n ∧ (2 : Int) ^ (32 - c.len).toNat ∣ n := by
  rw [normalise] at h
  simp only [Option.bind_eq_bind, Option.bind_eq_some_iff, Option.some.injEq] at h
  obtain ⟨ip, hip, rfl⟩ := h
  have hdvd : (2 : Int) ^ (32 - c.len).toNat ∣
      andLong ip (wrap64 (0xffffffff * 2 ^ (32 - c.len).toNat)) := by
    have hk : (32 - c.len).toNat ≤ 64 := by omega
    exact dvd_andLong hk (dvd_wrap64 hk (Dvd.intro_left _ rfl))
  split
  next hne =>
    obtain ⟨hl, hh⟩ := andLong_range ip (wrap64 (0xffffffff * 2 ^ (32 - c.len).toNat))
    exact ⟨rfl, _, getIntOf_dotted l hl hh, hdvd⟩
  next heq =>
    rw [not_not.1 heq] at hdvd
    exact ⟨rfl, ip, hip, hdvd⟩

/-- The number of a normalised address does not depend on the locale. -/
theorem normalise_locale (l l' : LocaleDigits) (c : CIDRIP) :
    (c.normalise l).map (fun r => (r.1, r.2.getInt, r.2.len)) =
      (c.normalise l').map fun r => (r.1, r.2.getInt, r.2.len) := by
  rw [normalise, normalise]
  cases hip : c.getInt with
  | none => rfl
  | some ip =>
      obtain ⟨hl, hh⟩ := andLong_range ip (wrap64 (0xffffffff * 2 ^ (32 - c.len).toNat))
      have hread : ∀ l : LocaleDigits, CIDRIP.getInt ⟨dotted l (andLong ip
          (wrap64 (0xffffffff * 2 ^ (32 - c.len).toNat))), c.len⟩ = some (andLong ip
            (wrap64 (0xffffffff * 2 ^ (32 - c.len).toNat))) := fun l => getIntOf_dotted l hl hh
      simp only [Option.bind_eq_bind, Option.bind_some, Option.map_some]
      split
      · rw [hread l, hread l']
      · rfl

/-- Only the digits from `0` on write an address as `Locale.US` does. -/
theorem dotted_eq_us_iff {l : LocaleDigits} {x : Int} (hlow : 0 ≤ x) (hhigh : x < 2 ^ 63) :
    dotted l x = dotted .us x ↔ l.zeroDigit = '0' := by
  constructor
  · intro h
    rw [dotted_eq l (by omega) hhigh, dotted_eq .us (by omega) hhigh] at h
    simp only [LocaleDigits.decimal] at h
    -- the first characters are digits
    obtain ⟨n, hn⟩ := Int.eq_ofNat_of_zero_le (show 0 ≤ x / 2 ^ 24 by omega)
    obtain ⟨c, t, ht⟩ := List.exists_cons_of_ne_nil (decimal_ne_nil (x / 2 ^ 24))
    have hc : c.isDigit := by
      have hmem : c ∈ Nat.toDigits 10 n := by
        have hdecimal : decimal (x / 2 ^ 24) = Nat.toDigits 10 n := by
          rw [hn]
          rfl
        rw [← hdecimal, ht]
        exact List.mem_cons_self
      exact Nat.isDigit_of_mem_toDigits (by decide) (by decide) hmem
    rw [ht, List.map_cons, List.map_cons, List.cons_append, List.cons_append,
      LocaleDigits.us_localize] at h
    exact l.zeroDigit_of_localize hc (List.cons.inj h).1
  · intro h
    have hl : l = .us := by
      obtain ⟨zeroDigit, isZero⟩ := l
      subst h
      rfl
    rw [hl]

end CIDRIP

end PortVpn.Net
