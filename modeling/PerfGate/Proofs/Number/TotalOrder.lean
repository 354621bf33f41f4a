import PerfGate.Proofs.Number.Rounding
import PerfGate.Results.Pairing

/-!
# The total order of words

Words are ordered as signed numbers after the magnitudes of the negative ones have been turned
around. The place of a word in this order is the key that comparisons are ranked by, and on
numbers the order agrees with the usual one. Only what is not a number has many words. Its words
lie beyond those of all numbers and share no place with them.
-/

set_option autoImplicit false

namespace PerfGate.Number

open Pairing
open Float.Model (UnpackedFloat)

/-! ## The order on numbers -/

/-- The signed number of a word whose lower bits are flipped if the sign is set. -/
def totalKey (word : UInt64) : Int :=
  (word.toBitVec ^^^ (word.toBitVec.sshiftRight 63 >>> 1)).toInt

theorem xor_below {n : Nat} (h : n < 2 ^ 63) : n ^^^ (2 ^ 63 - 1) = 2 ^ 63 - 1 - n := by
  have hxor := congrArg BitVec.toNat (BitVec.xor_allOnes (x := BitVec.ofNat 63 n))
  rw [BitVec.toNat_xor, BitVec.toNat_allOnes, BitVec.toNat_not, BitVec.toNat_ofNat,
    Nat.mod_eq_of_lt h] at hxor
  exact hxor

theorem xor_above {n : Nat} (hlow : 2 ^ 63 ≤ n) (hhigh : n < 2 ^ 64) :
    n ^^^ (2 ^ 63 - 1) = 2 ^ 63 + (2 ^ 63 - 1 - n % 2 ^ 63) := by
  have hmod : (n ^^^ (2 ^ 63 - 1)) % 2 ^ 63 = 2 ^ 63 - 1 - n % 2 ^ 63 := by
    rw [Nat.xor_mod_two_pow]
    exact xor_below (Nat.mod_lt _ (by omega))
  have hdiv : (n ^^^ (2 ^ 63 - 1)) / 2 ^ 63 = 1 := by
    rw [Nat.xor_div_two_pow, show n / 2 ^ 63 = 1 by omega]
    rfl
  omega

theorem mask_of_positive {w : BitVec 64} (h : w.msb = false) :
    w.sshiftRight 63 >>> 1 = 0#64 := by
  have hlow := BitVec.msb_eq_false_iff_two_mul_lt.mp h
  apply BitVec.eq_of_toNat_eq
  rw [BitVec.sshiftRight_eq_of_msb_false h, BitVec.toNat_ushiftRight,
    BitVec.toNat_ushiftRight, Nat.shiftRight_eq_div_pow, Nat.shiftRight_eq_div_pow]
  simp
  omega

theorem mask_of_negative {w : BitVec 64} (h : w.msb = true) :
    (w.sshiftRight 63 >>> 1).toNat = 2 ^ 63 - 1 := by
  have hhigh := BitVec.msb_eq_true_iff_two_mul_ge.mp h
  have hzero : ~~~w >>> 63 = 0#64 := by
    apply BitVec.eq_of_toNat_eq
    rw [BitVec.toNat_ushiftRight, BitVec.toNat_not, Nat.shiftRight_eq_div_pow]
    simp
    omega
  rw [BitVec.sshiftRight_eq_of_msb_true h, hzero]
  rfl

theorem orderKey_eq_totalKey (word : UInt64) : orderKey word = totalKey word := by
  have hword : word.toBitVec.toNat = word.toNat := rfl
  have hlt : word.toNat < 2 ^ 64 := word.toNat_lt
  have hbit : Decimal.Binary.signBit = 2 ^ 63 := rfl
  rw [orderKey, totalKey]
  cases hmsb : word.toBitVec.msb with
  | false =>
    have hlow := BitVec.msb_eq_false_iff_two_mul_lt.mp hmsb
    rw [mask_of_positive hmsb, BitVec.xor_zero, BitVec.toInt_eq_toNat_of_msb hmsb,
      if_pos (by omega)]
    rfl
  | true =>
    have hhigh := BitVec.msb_eq_true_iff_two_mul_ge.mp hmsb
    rw [BitVec.toInt_eq_toNat_cond, BitVec.toNat_xor, mask_of_negative hmsb,
      xor_above (by omega) (by omega), if_neg (by omega), if_neg (by omega)]
    omega

theorem orderKey_toBits (x : Float) :
    orderKey x.toBits = place x ∧ 0 ≤ place x ∨ orderKey x.toBits = place x - 1 ∧ place x ≤ 0 := by
  have hbit : Decimal.Binary.signBit = 2 ^ 63 := rfl
  have hlt : x.toBits.toNat < 2 ^ 64 := x.toBits.toNat_lt
  by_cases h : x.toBits.toNat < Decimal.Binary.signBit
  · have hplace : place x = x.toBits.toNat := by
      rw [place, signOf, if_pos h, magnitude, Nat.mod_eq_of_lt h]
      rfl
    rw [orderKey, if_pos h]
    omega
  · have hplace : place x = -(x.toBits.toNat % Decimal.Binary.signBit : Nat) := by
      rw [place, signOf, if_neg h]
      rfl
    rw [orderKey, if_neg h]
    rw [hbit] at h hplace ⊢
    omega

/-- On numbers the total order refines the usual one. -/
theorem totalKey_lt {x y : Float} (hx : x.isNaN = false) (hy : y.isNaN = false) (h : x < y) :
    totalKey x.toBits < totalKey y.toBits := by
  have hplace := (lt_iff hx hy).mp h
  rw [← orderKey_eq_totalKey, ← orderKey_eq_totalKey]
  rcases orderKey_toBits x with hxkey | hxkey <;> rcases orderKey_toBits y with hykey | hykey <;>
    omega

/-! ## Words of what is not a number -/

/-- The order tells any two words apart. -/
theorem orderKey_injective : Function.Injective orderKey := by
  intro v w h
  have hbit : Decimal.Binary.signBit = 2 ^ 63 := rfl
  apply UInt64.toNat_inj.mp
  simp only [orderKey, hbit] at h
  split at h <;> split at h <;> omega

theorem infinityWord_lt_of_isNaN {w : UInt64} (h : (Float.ofBits w).isNaN = true) :
    infinityWord < w.toNat % Decimal.Binary.signBit := by
  by_contra hle
  have hmagnitude := (ofBits_components (not_lt.mp hle)).2
  rw [isNaN_iff] at h
  omega

/-- To set a bit of such a word makes no number of it. -/
theorem infinityWord_lt_or {w : UInt64} (h : infinityWord < w.toNat % Decimal.Binary.signBit)
    (bits : UInt64) : infinityWord < (w ||| bits).toNat % Decimal.Binary.signBit := by
  have hbit : Decimal.Binary.signBit = 2 ^ 63 := rfl
  rw [hbit] at *
  rw [UInt64.toNat_or, Nat.or_mod_two_pow]
  exact h.trans_le Nat.left_le_or

theorem toBits_of_isNaN {x : Float} (h : x.isNaN = true) :
    x.toBits.toBitVec = UnpackedFloat.packedNaN .binary64 := by
  have hlow := isNaN_iff.mp h
  have hhigh : x.toBits.toNat < 2 ^ 64 := x.toBits.toNat_lt
  have hbit : Decimal.Binary.signBit = 2 ^ 63 := rfl
  have hi : infinityWord = 2047 * 2 ^ 52 := rfl
  rw [magnitude, hbit, hi] at hlow
  apply x.toModel.valid.eq_packedNaN
  · apply BitVec.eq_of_toNat_eq
    rw [exponent_toNat]
    change x.toBits.toNat / 2 ^ 52 % 2048 = 2047
    omega
  · intro hzero
    have hmantissa := mantissa_toNat x.toBits.toBitVec
    have hnone : (@UnpackedFloat.unpackMantissa .binary64 x.toBits.toBitVec).toNat = 0 :=
      congrArg BitVec.toNat hzero
    change _ = x.toBits.toNat % 2 ^ 52 at hmantissa
    omega

/-- What is not a number keeps none of its words. -/
theorem eq_of_isNaN {x y : Float} (hx : x.isNaN = true) (hy : y.isNaN = true) : x = y := by
  apply eq_of_toBits
  apply UInt64.toBitVec_inj.mp
  rw [toBits_of_isNaN hx, toBits_of_isNaN hy]

end PerfGate.Number
