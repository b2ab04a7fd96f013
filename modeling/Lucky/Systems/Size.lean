import Mathlib.Algebra.Order.Ring.Nat
import Mathlib.Tactic.Common

/-!
# Unsigned 64-bit sizes

`size_t` values are natural numbers; every sum and difference the code forms is
reduced modulo `2 ^ 64`.  Below the modulus the operations are the ordinary ones.
An `int` is a vector of 32 bits.
-/

namespace Lucky.Systems

def sizeModulus : Nat := 2 ^ 64

/-- The largest object: `2 ^ 63 - 1` bytes, also `max_size()` of a `vector<char>`. -/
def maxSize : Nat := 2 ^ 63 - 1

def sizeAdd (first second : Nat) : Nat := (first + second) % sizeModulus

def sizeSub (first second : Nat) : Nat :=
  (first + (sizeModulus - second % sizeModulus)) % sizeModulus

theorem one_le_maxSize : 1 ≤ maxSize := by decide

theorem sizeAdd_of_lt {first second : Nat} (fits : first + second < sizeModulus) :
    sizeAdd first second = first + second :=
  Nat.mod_eq_of_lt fits

theorem sizeAdd_of_ge {first second : Nat} (wraps : sizeModulus ≤ first + second)
    (small : first + second < 2 * sizeModulus) :
    sizeAdd first second = first + second - sizeModulus := by
  rw [sizeAdd, Nat.mod_eq_sub_mod wraps, Nat.mod_eq_of_lt (by omega)]

theorem sizeSub_of_le {first second : Nat}
    (ordered : second ≤ first) (fits : first < sizeModulus) :
    sizeSub first second = first - second := by
  have small : second % sizeModulus = second := Nat.mod_eq_of_lt (by omega)
  have shifted : first + (sizeModulus - second) = first - second + sizeModulus := by
    omega
  rw [sizeSub, small, shifted, Nat.add_mod_right, Nat.mod_eq_of_lt (by omega)]

/-! ## Conversions -/

/-- The conversion of an `int` to `size_t`. -/
def sizeOfInt (value : BitVec 32) : Nat := (value.signExtend 64).toNat

/-- The conversion of a `size_t` to `int`. -/
def intOfSize (size : Nat) : BitVec 32 := BitVec.ofNat 32 size

theorem sizeOfInt_ofNat {count : Nat} (small : count < 2 ^ 31) :
    sizeOfInt (BitVec.ofNat 32 count) = count := by
  have positive : (BitVec.ofNat 32 count).msb = false := by
    rw [BitVec.msb_eq_false_iff_two_mul_lt, BitVec.toNat_ofNat]
    omega
  rw [sizeOfInt, BitVec.signExtend_eq_setWidth_of_msb_false positive, BitVec.toNat_setWidth,
    BitVec.toNat_ofNat]
  omega

theorem toInt_ofNat {count : Nat} (small : count < 2 ^ 31) :
    (BitVec.ofNat 32 count).toInt = count := by
  rw [BitVec.toInt_eq_toNat_of_lt] <;> rw [BitVec.toNat_ofNat] <;> omega

theorem toInt_neg_one : (-1 : BitVec 32).toInt = -1 := by decide

/-- `-1` becomes the largest size, which becomes `-1` again. -/
theorem sizeOfInt_neg_one : sizeOfInt (-1) = sizeModulus - 1 := by decide

theorem toInt_intOfSize_max : (intOfSize (sizeModulus - 1)).toInt = -1 := by decide

end Lucky.Systems
