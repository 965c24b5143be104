import Mathlib.Algebra.Order.Ring.Nat
import Mathlib.Data.List.Basic
import Mathlib.Tactic.Ring

/-!
# Big-endian byte buffers

The `put` and `get` operations of `java.nio.ByteBuffer` in its default byte order. What a `get`
leaves is given back with the value; `none` is the `BufferUnderflowException`. Every `get` reads
what the `put` of its type wrote.
-/

set_option autoImplicit false

namespace PortVpn.Lib.ByteBuffer

/-! ## Bytes of a number -/

/-- The lowest `n` bytes of a number, the highest first. -/
def bigEndian : Nat → Nat → List UInt8
  | 0, _ => []
  | n + 1, v => UInt8.ofNat (v / 256 ^ n) :: bigEndian n v

/-- The number with the given bytes behind the ones read so far. -/
def ofBigEndian (read : Nat) (bs : List UInt8) : Nat := bs.foldl (fun v b => v * 256 + b.toNat) read

@[simp] theorem length_bigEndian (n v : Nat) : (bigEndian n v).length = n := by
  induction n with
  | zero => rfl
  | succ n ih => rw [bigEndian, List.length_cons, ih]

theorem ofBigEndian_bigEndian (n v : Nat) :
    ∀ read, ofBigEndian read (bigEndian n v) = read * 256 ^ n + v % 256 ^ n := by
  induction n with
  | zero =>
      intro read
      rw [pow_zero, Nat.mod_one, Nat.mul_one]
      rfl
  | succ n ih =>
      intro read
      have hbyte : (UInt8.ofNat (v / 256 ^ n)).toNat = v / 256 ^ n % 256 := UInt8.toNat_ofNat'
      have hstep : ofBigEndian read (bigEndian (n + 1) v) =
          ofBigEndian (read * 256 + v / 256 ^ n % 256) (bigEndian n v) := by
        rw [← hbyte]
        rfl
      rw [hstep, ih, Nat.mod_pow_succ, pow_succ]
      ring

theorem ofBigEndian_eq (bs : List UInt8) :
    ∀ read, ofBigEndian read bs = read * 256 ^ bs.length + ofBigEndian 0 bs := by
  induction bs with
  | nil =>
      intro read
      rw [List.length_nil, pow_zero, Nat.mul_one]
      rfl
  | cons b bs ih =>
      intro read
      have hstep : ∀ read, ofBigEndian read (b :: bs) = ofBigEndian (read * 256 + b.toNat) bs :=
        fun _ => rfl
      rw [hstep, hstep, ih, ih (0 * 256 + b.toNat), List.length_cons, pow_succ]
      ring

theorem ofBigEndian_lt (bs : List UInt8) : ofBigEndian 0 bs < 256 ^ bs.length := by
  induction bs with
  | nil => exact Nat.one_pos
  | cons b bs ih =>
      have hstep : ofBigEndian 0 (b :: bs) = ofBigEndian b.toNat bs := by
        show ofBigEndian (0 * 256 + b.toNat) bs = _
        rw [Nat.zero_mul, Nat.zero_add]
      have hb : b.toNat + 1 ≤ 256 := b.toNat_lt
      rw [hstep, ofBigEndian_eq, List.length_cons, pow_succ]
      calc b.toNat * 256 ^ bs.length + ofBigEndian 0 bs
          < b.toNat * 256 ^ bs.length + 256 ^ bs.length := Nat.add_lt_add_left ih _
        _ = (b.toNat + 1) * 256 ^ bs.length := by ring
        _ ≤ 256 * 256 ^ bs.length := Nat.mul_le_mul_right _ hb
        _ = 256 ^ bs.length * 256 := Nat.mul_comm _ _

/-- All bytes are those of a number. -/
theorem bigEndian_ofBigEndian (bs : List UInt8) :
    ∀ read, bigEndian bs.length (ofBigEndian read bs) = bs := by
  induction bs with
  | nil => exact fun _ => rfl
  | cons b bs ih =>
      intro read
      have hstep : ofBigEndian read (b :: bs) = ofBigEndian (read * 256 + b.toNat) bs := rfl
      have hhigh : ofBigEndian (read * 256 + b.toNat) bs / 256 ^ bs.length =
          read * 256 + b.toNat := by
        rw [ofBigEndian_eq, Nat.add_comm, Nat.add_mul_div_right _ _ (Nat.pow_pos (by decide)),
          Nat.div_eq_of_lt (ofBigEndian_lt bs), Nat.zero_add]
      have hbyte : UInt8.ofNat (read * 256 + b.toNat) = b := by
        apply UInt8.toNat_inj.1
        rw [UInt8.toNat_ofNat', Nat.mul_add_mod', Nat.mod_eq_of_lt b.toNat_lt]
      rw [hstep, List.length_cons, bigEndian, ih, hhigh, hbyte]

/-! ## The buffer -/

/-- `bb.get(bytes)`. -/
def getBytes (n : Nat) (bb : List UInt8) : Option (List UInt8 × List UInt8) :=
  if n ≤ bb.length then some (bb.take n, bb.drop n) else none

theorem getBytes_append {n : Nat} {bs : List UInt8} (h : bs.length = n) (rest : List UInt8) :
    getBytes n (bs ++ rest) = some (bs, rest) := by
  subst h
  rw [getBytes, if_pos (by simp), List.take_left, List.drop_left]

/-- A value of `n` bytes. -/
def putBits (n : Nat) (x : BitVec (8 * n)) : List UInt8 := bigEndian n x.toNat

def getBits (n : Nat) (bb : List UInt8) : Option (BitVec (8 * n) × List UInt8) :=
  (getBytes n bb).map fun r => (BitVec.ofNat (8 * n) (ofBigEndian 0 r.1), r.2)

@[simp] theorem length_putBits (n : Nat) (x : BitVec (8 * n)) : (putBits n x).length = n :=
  length_bigEndian n x.toNat

/-- **What is put is got.** -/
theorem getBits_putBits (n : Nat) (x : BitVec (8 * n)) (rest : List UInt8) :
    getBits n (putBits n x ++ rest) = some (x, rest) := by
  have hlt : x.toNat < 256 ^ n := by
    have h := x.isLt
    rw [pow_mul] at h
    exact h
  have hvalue : ofBigEndian 0 (putBits n x) = x.toNat := by
    rw [putBits, ofBigEndian_bigEndian, Nat.zero_mul, Nat.zero_add, Nat.mod_eq_of_lt hlt]
  rw [getBits, getBytes_append (length_putBits n x), Option.map_some, hvalue, BitVec.ofNat_toNat,
    BitVec.setWidth_eq]

/-! ## Java's types -/

def putChar (c : BitVec 16) : List UInt8 := putBits 2 c

def getChar (bb : List UInt8) : Option (BitVec 16 × List UInt8) := getBits 2 bb

def putInt (x : Int32) : List UInt8 := putBits 4 x.toBitVec

def getInt (bb : List UInt8) : Option (Int32 × List UInt8) :=
  (getBits 4 bb).map fun r => (Int32.ofBitVec r.1, r.2)

def putLong (x : Int64) : List UInt8 := putBits 8 x.toBitVec

def getLong (bb : List UInt8) : Option (Int64 × List UInt8) :=
  (getBits 8 bb).map fun r => (Int64.ofBitVec r.1, r.2)

@[simp] theorem getChar_putChar (c : BitVec 16) (rest : List UInt8) :
    getChar (putChar c ++ rest) = some (c, rest) := getBits_putBits 2 c rest

@[simp] theorem getInt_putInt (x : Int32) (rest : List UInt8) :
    getInt (putInt x ++ rest) = some (x, rest) := by
  rw [getInt, putInt, getBits_putBits 4 x.toBitVec rest]
  rfl

/-- All four bytes are those of an `int`. -/
theorem exists_putInt (bs : List UInt8) (h : bs.length = 4) : ∃ x, putInt x = bs := by
  have hlt := ofBigEndian_lt bs
  rw [h] at hlt
  refine ⟨Int32.ofBitVec (BitVec.ofNat 32 (ofBigEndian 0 bs)), ?_⟩
  have hvalue : (BitVec.ofNat 32 (ofBigEndian 0 bs)).toNat = ofBigEndian 0 bs := by
    rw [BitVec.toNat_ofNat, Nat.mod_eq_of_lt (by simpa using hlt)]
  rw [putInt, putBits, Int32.toBitVec_ofBitVec, hvalue, ← h, bigEndian_ofBigEndian]

@[simp] theorem getLong_putLong (x : Int64) (rest : List UInt8) :
    getLong (putLong x ++ rest) = some (x, rest) := by
  rw [getLong, putLong, getBits_putBits 8 x.toBitVec rest]
  rfl

@[simp] theorem length_putChar (c : BitVec 16) : (putChar c).length = 2 := length_putBits 2 c

@[simp] theorem length_putInt (x : Int32) : (putInt x).length = 4 := length_putBits 4 x.toBitVec

@[simp] theorem length_putLong (x : Int64) : (putLong x).length = 8 := length_putBits 8 x.toBitVec

example : putInt (-2) = [0xFF, 0xFF, 0xFF, 0xFE] := by decide

end PortVpn.Lib.ByteBuffer
