import Mathlib.Data.List.Basic
import Mathlib.Data.Nat.Bitwise
import Mathlib.Tactic.IntervalCases

/-!
# Bytes in groups of six bits

Three bytes have as many bits as four digits below 64. `toDigits` regroups a row of bytes, the last
digit of an unfinished group being filled with zeros, and `ofDigits` takes the bytes out of a row of
digits. Programs compute both with shifts and masks; the lemmas at the end say which digit or byte
an expression of that kind is.
-/

set_option autoImplicit false

namespace PortVpn.Lib.SixBits

/-! ## Digits and bytes -/

/-- The digits of a row of bytes. -/
def toDigits : List UInt8 → List Nat
  | [] => []
  | [a] => [a.toNat / 4, a.toNat % 4 * 16]
  | [a, b] => [a.toNat / 4, a.toNat % 4 * 16 + b.toNat / 16, b.toNat % 16 * 4]
  | a :: b :: c :: bs =>
      a.toNat / 4 :: (a.toNat % 4 * 16 + b.toNat / 16) :: (b.toNat % 16 * 4 + c.toNat / 64) ::
        c.toNat % 64 :: toDigits bs

/-- The bytes whose bits are all among those of a row of digits. -/
def ofDigits : List Nat → List UInt8
  | d₁ :: d₂ :: d₃ :: d₄ :: ds =>
      UInt8.ofNat (d₁ * 4 + d₂ / 16) :: UInt8.ofNat (d₂ % 16 * 16 + d₃ / 4) ::
        UInt8.ofNat (d₃ % 4 * 64 + d₄) :: ofDigits ds
  | [d₁, d₂, d₃] => [UInt8.ofNat (d₁ * 4 + d₂ / 16), UInt8.ofNat (d₂ % 16 * 16 + d₃ / 4)]
  | [d₁, d₂] => [UInt8.ofNat (d₁ * 4 + d₂ / 16)]
  | [_] => []
  | [] => []

theorem lt_of_mem_toDigits {bs : List UInt8} : ∀ d ∈ toDigits bs, d < 64 := by
  induction bs using toDigits.induct with
  | case1 => simp [toDigits]
  | case2 a =>
      have ha := a.toNat_lt
      simp only [toDigits, List.mem_cons, List.not_mem_nil, or_false]
      omega
  | case3 a b =>
      have ha := a.toNat_lt
      have hb := b.toNat_lt
      simp only [toDigits, List.mem_cons, List.not_mem_nil, or_false]
      omega
  | case4 a b c bs ih =>
      have ha := a.toNat_lt
      have hb := b.toNat_lt
      have hc := c.toNat_lt
      intro d hd
      simp only [toDigits, List.mem_cons] at hd
      rcases hd with rfl | rfl | rfl | rfl | hd
      · omega
      · omega
      · omega
      · omega
      · exact ih d hd

theorem length_toDigits (bs : List UInt8) : (toDigits bs).length = (bs.length * 4 + 2) / 3 := by
  induction bs using toDigits.induct with
  | case1 => rfl
  | case2 a => simp [toDigits]
  | case3 a b => simp [toDigits]
  | case4 a b c bs ih =>
      simp only [toDigits, List.length_cons, ih]
      omega

private theorem ofNat_eq {n : Nat} {a : UInt8} (h : n = a.toNat) : UInt8.ofNat n = a := by
  rw [h, UInt8.ofNat_toNat]

/-- **The bytes are taken out again.** -/
theorem ofDigits_toDigits (bs : List UInt8) : ofDigits (toDigits bs) = bs := by
  induction bs using toDigits.induct with
  | case1 => rfl
  | case2 a =>
      have ha := a.toNat_lt
      rw [toDigits, ofDigits, ofNat_eq (a := a) (by omega)]
  | case3 a b =>
      have ha := a.toNat_lt
      have hb := b.toNat_lt
      rw [toDigits, ofDigits, ofNat_eq (a := a) (by omega), ofNat_eq (a := b) (by omega)]
  | case4 a b c bs ih =>
      have ha := a.toNat_lt
      have hb := b.toNat_lt
      have hc := c.toNat_lt
      rw [toDigits, ofDigits, ih, ofNat_eq (a := a) (by omega), ofNat_eq (a := b) (by omega),
        ofNat_eq (a := c) (by omega)]

/-! ## Whole groups -/

/-- The rows of bytes before an unfinished group. -/
theorem toDigits_append {bs : List UInt8} (h : 3 ∣ bs.length) (cs : List UInt8) :
    toDigits (bs ++ cs) = toDigits bs ++ toDigits cs := by
  induction bs using toDigits.induct with
  | case1 => rfl
  | case2 a => exact absurd h (by simp)
  | case3 a b => exact absurd h (by simp)
  | case4 a b c bs ih =>
      have h : 3 ∣ bs.length := by
        simp only [List.length_cons] at h
        omega
      simp only [List.cons_append, toDigits, ih h]

theorem ofDigits_append {ds : List Nat} (h : 4 ∣ ds.length) (es : List Nat) :
    ofDigits (ds ++ es) = ofDigits ds ++ ofDigits es := by
  induction ds using ofDigits.induct with
  | case1 d₁ d₂ d₃ d₄ ds ih =>
      have h : 4 ∣ ds.length := by
        simp only [List.length_cons] at h
        omega
      simp only [List.cons_append, ofDigits, ih h]
  | case2 => exact absurd h (by simp)
  | case3 => exact absurd h (by simp)
  | case4 => exact absurd h (by simp)
  | case5 => rfl

/-! ## Shifts and masks -/

section Shifts

variable {a b n : Nat}

theorem and_63 (a : Nat) : a &&& 0x3f = a % 64 := Nat.and_two_pow_sub_one_eq_mod a 6

/-- Bits put behind those of a number. -/
theorem mul_or (h : b < 2 ^ n) : a * 2 ^ n ||| b = a * 2 ^ n + b := by
  rw [← Nat.shiftLeft_eq, ← Nat.shiftLeft_add_eq_or_of_lt h]

end Shifts

end PortVpn.Lib.SixBits
