import PerfGate.Proofs.Number.Defined

/-!
# Whole parts

A finite number is cut off to a word. The word is the whole part of the number if that fits, and
the greatest word if it does not; of a negative number it is zero. Rounding does not move a rational
to the next whole number if a step of the grid lies between them.
-/

set_option autoImplicit false

namespace PerfGate.Number

open Float.Model (UnpackedFloat Format)
open Float.Model.UnpackedFloat

/-- The whole part of a significand at an exponent, by shifts. -/
theorem floor_mul_zpow (m : Nat) (e : Int) :
    ⌊(m : ℚ) * 2 ^ e⌋₊ = m <<< e.toNat / 2 ^ (-e).toNat := by
  rcases le_or_gt 0 e with h | h
  · obtain ⟨n, rfl⟩ := Int.eq_ofNat_of_zero_le h
    have hwhole : (m : ℚ) * 2 ^ (n : Int) = (m * 2 ^ n : Nat) := by
      rw [zpow_natCast, Nat.cast_mul, Nat.cast_pow, Nat.cast_ofNat]
    rw [hwhole, Nat.floor_natCast, Int.toNat_natCast, Int.toNat_neg_natCast, pow_zero, Nat.div_one,
      Nat.shiftLeft_eq]
  · obtain ⟨n, rfl⟩ : ∃ n : Nat, e = -n := ⟨(-e).toNat, by omega⟩
    have hquotient : (m : ℚ) * 2 ^ (-(n : Int)) = (m : ℚ) / (2 ^ n : Nat) := by
      rw [zpow_neg, zpow_natCast, ← div_eq_mul_inv, Nat.cast_pow, Nat.cast_ofNat]
    rw [hquotient, Nat.floor_div_eq_div, Int.toNat_neg_natCast, neg_neg, Int.toNat_natCast,
      Nat.shiftLeft_zero]

theorem roundToInt_eq (s : Sign) (m : Nat) (e : Int) :
    roundToInt s m e = s.apply ⌊(m : ℚ) * 2 ^ e⌋₊ := by
  have hshift : (0 - (e - (e.toNat : Int))).toNat = (-e).toNat := by omega
  rw [floor_mul_zpow, roundToInt, decreaseExponent]
  simp only [shiftToExponent, Int.sub_zero, hshift, shiftRight_mantissa]
  rfl

theorem toNat_apply_floor {s : Sign} {q : ℚ} (hq : 0 ≤ q) :
    (s.apply ⌊q⌋₊).toNat = ⌊signed s q⌋₊ := by
  cases s with
  | positive => exact Int.toNat_natCast _
  | negative =>
    have hzero : ⌊-q⌋₊ = 0 := Nat.floor_of_nonpos (by linarith)
    rw [signed, hzero]
    exact Int.toNat_neg_natCast _

theorem toNat_ofNatClamp (n : Nat) : (UInt64.ofNatClamp n).toNat = min n (UInt64.size - 1) := by
  unfold UInt64.ofNatClamp
  split
  · next h => exact (min_eq_left (Nat.le_sub_one_of_lt h)).symm
  · next h => exact (min_eq_right ((Nat.sub_le _ _).trans (not_lt.mp h))).symm

theorem toUInt64_toNat {x : Float} (hx : x.isFinite = true) :
    x.toUInt64.toNat = min ⌊value x⌋₊ (UInt64.size - 1) := by
  change (UInt64.ofNatClamp (x.toModel.unpack.toInt 0 (UInt64.size - 1)).toNat).toNat = _
  have hstands := stands hx
  generalize value x = q at hstands ⊢
  generalize x.toModel.unpack = u at hstands ⊢
  have hwhole : (u.toInt 0 (UInt64.size - 1)).toNat = ⌊q⌋₊ := by
    cases hstands with
    | zero => rw [Nat.floor_zero]; rfl
    | @finite s m e h =>
      rw [UnpackedFloat.toInt, roundToInt_eq, ← signed_mul_right]
      exact toNat_apply_floor (by positivity)
  rw [hwhole]
  exact toNat_ofNatClamp _

/-- What keeps clear of the next whole number by one step of a grid stays below it when it is
rounded. -/
theorem Rounds.floor_eq {q : ℚ} {x : Float} {n b : Nat} (hx : Rounds q x)
    (hgrid : (n + 1) * 2 ^ b ≤ 2 ^ 53) (hq : 0 ≤ q) (hlow : n ≤ value x)
    (hhigh : q ≤ n + 1 - 1 / 2 ^ b) : x.isFinite = true ∧ ⌊value x⌋₊ = n := by
  have hpow : 0 < 2 ^ b := Nat.two_pow_pos b
  have hb : b ≤ 53 := by
    apply (Nat.pow_le_pow_iff_right one_lt_two).mp
    exact (Nat.le_mul_of_pos_left _ n.succ_pos).trans hgrid
  have hone : 1 ≤ (n + 1) * 2 ^ b := Nat.mul_pos n.succ_pos hpow
  have hbelow : (n + 1) * 2 ^ b - 1 < 2 ^ 53 := by omega
  have hstep : (((n + 1) * 2 ^ b - 1 : Nat) : ℚ) * 2 ^ (((1074 - b : ℕ) : ℤ) - 1074) =
      n + 1 - 1 / 2 ^ b := by
    rw [show ((1074 - b : ℕ) : ℤ) - 1074 = -(b : ℤ) by omega, zpow_neg, zpow_natCast,
      Nat.cast_sub hone]
    push_cast
    field_simp
  rw [← hstep] at hhigh
  have hfinite := hx.isFinite_of_le hbelow (by omega) ((abs_of_nonneg hq).trans_le hhigh)
  have hvalue := hx.value_le_packed hbelow (by omega) hhigh
  have hshare : (0 : ℚ) < 1 / 2 ^ b := by positivity
  rw [hstep] at hvalue
  exact ⟨hfinite, (Nat.floor_eq_iff (n.cast_nonneg.trans hlow)).mpr ⟨hlow, by linarith⟩⟩

end PerfGate.Number
