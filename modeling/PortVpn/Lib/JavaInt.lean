import Mathlib.Algebra.Order.Ring.Int

/-!
# Java integer arithmetic

`int` and `long` values are integers; an operation that can leave the range is followed by the
wrap-around of its type.
-/

set_option autoImplicit false

namespace PortVpn.Lib

/-- Wrap-around of 32-bit `int` arithmetic. -/
def wrap32 (x : Int) : Int := Int.bmod x (2 ^ 32)

/-- Wrap-around of 64-bit `long` arithmetic. -/
def wrap64 (x : Int) : Int := Int.bmod x (2 ^ 64)

/-- `&` of two `long` values. -/
def andLong (x y : Int) : Int := (BitVec.ofInt 64 x &&& BitVec.ofInt 64 y).toInt

theorem wrap32_eq_self {x : Int} (h₁ : -2 ^ 31 ≤ x) (h₂ : x < 2 ^ 31) : wrap32 x = x := by
  rw [wrap32]
  rw [Int.bmod_eq_of_le] <;> omega

theorem wrap64_eq_self {x : Int} (h₁ : -2 ^ 63 ≤ x) (h₂ : x < 2 ^ 63) : wrap64 x = x := by
  rw [wrap64]
  rw [Int.bmod_eq_of_le] <;> omega

theorem wrap64_range (x : Int) : -2 ^ 63 ≤ wrap64 x ∧ wrap64 x < 2 ^ 63 := by
  have hlow := Int.le_bmod (x := x) (m := 2 ^ 64) (by decide)
  have hhigh := Int.bmod_lt (x := x) (m := 2 ^ 64) (by decide)
  rw [wrap64]
  omega

/-- A wrapped summand of a wrapped sum makes no difference. -/
theorem wrap64_wrap64_add (x y : Int) : wrap64 (wrap64 x + y) = wrap64 (x + y) := by
  simp [wrap64]

theorem wrap64_add_wrap64 (x y : Int) : wrap64 (x + wrap64 y) = wrap64 (x + y) := by
  simp [wrap64]

/-- A sum taken in `long` arithmetic, one value at a time, is the sum wrapped around once. -/
theorem foldl_wrap64 {α : Type} (f : α → Int) (l : List α) (x : Int) :
    l.foldl (fun sum a => wrap64 (sum + f a)) (wrap64 x) = wrap64 (x + (l.map f).sum) := by
  induction l generalizing x with
  | nil => simp
  | cons a l ih =>
      rw [List.foldl_cons, wrap64_wrap64_add, ih, List.map_cons, List.sum_cons, add_assoc]

theorem wrap64_eq_zero {x : Int} (h : wrap64 x = 0) : x % 2 ^ 64 = 0 := by
  rw [wrap64] at h
  rw [Int.bmod_def] at h
  split at h <;> omega

/-! ## Rows of bits -/

/-- The bits of a row. -/
theorem and_row (n i j : Nat) : n &&& (2 ^ j - 1) * 2 ^ i = n / 2 ^ i % 2 ^ j * 2 ^ i := by
  apply Nat.eq_of_testBit_eq
  intro t
  simp only [Nat.testBit_and, Nat.testBit_mul_two_pow, Nat.testBit_mod_two_pow,
    Nat.testBit_div_two_pow, Nat.testBit_two_pow_sub_one]
  by_cases h : i ≤ t
  · rw [Nat.sub_add_cancel h]
    simp [h, Bool.and_comm]
  · simp [h]

theorem andLong_eq (x y : Int) :
    andLong x y = wrap64 (((x % 2 ^ 64).toNat &&& (y % 2 ^ 64).toNat : Nat) : Int) := by
  rw [andLong, BitVec.toInt_eq_toNat_bmod, BitVec.toNat_and, BitVec.toNat_ofInt, BitVec.toNat_ofInt]
  rfl

theorem andLong_range (x y : Int) : -2 ^ 63 ≤ andLong x y ∧ andLong x y < 2 ^ 63 := by
  rw [andLong_eq]
  exact wrap64_range _

/-- The zeros at the end of a mask. -/
theorem dvd_wrap64 {x : Int} {k : Nat} (hk : k ≤ 64) (h : (2 : Int) ^ k ∣ x) :
    (2 : Int) ^ k ∣ wrap64 x := by
  have h64 : (2 : Int) ^ k ∣ ((2 ^ 64 : Nat) : Int) := pow_dvd_pow 2 hk
  rw [wrap64, Int.bmod_eq_self_sub_mul_bdiv]
  exact Int.dvd_sub h (Dvd.dvd.mul_right h64 _)

theorem dvd_andLong {x y : Int} {k : Nat} (hk : k ≤ 64) (h : (2 : Int) ^ k ∣ y) :
    (2 : Int) ^ k ∣ andLong x y := by
  rw [andLong_eq]
  apply dvd_wrap64 hk
  have hmask : 2 ^ k ∣ (y % 2 ^ 64).toNat := by
    have h64 : (2 : Int) ^ k ∣ 2 ^ 64 := pow_dvd_pow 2 hk
    have hmod : ((2 ^ k : Nat) : Int) ∣ y % 2 ^ 64 := by
      rw [Int.emod_def]
      exact Int.dvd_sub h (Dvd.dvd.mul_right h64 _)
    rw [← Int.toNat_of_nonneg (Int.emod_nonneg y (by decide : (2 : Int) ^ 64 ≠ 0))] at hmod
    exact Int.natCast_dvd_natCast.1 hmod
  have hand : 2 ^ k ∣ (x % 2 ^ 64).toNat &&& (y % 2 ^ 64).toNat := by
    rw [Nat.dvd_iff_mod_eq_zero, Nat.and_mod_two_pow, Nat.mod_eq_zero_of_dvd hmask, Nat.and_zero]
  exact_mod_cast hand

end PortVpn.Lib
