import PerfGate.Proofs.Number.Neighbours
import PerfGate.Proofs.Number.WholePart
import PerfGate.Proofs.Number.Zeros

/-!
# Cutting off

Every number is cut off to a word, and greater numbers to greater words: infinities to the ends of
the range, and what is no number to zero. A product by a positive number keeps the order before it
is cut off, also where it overflows or where the factor is infinite, which leaves zero undefined.
A product by what is above one is not rounded down to the number that was multiplied.
-/

set_option autoImplicit false

namespace PerfGate.Number

open Float.Model (UnpackedFloat Format)
open Float.Model.UnpackedFloat

section
variable {x y a : Float} {q : ℚ}

/-! ## All words -/

theorem toNat_toUInt64 (x : Float) :
    x.toUInt64.toNat =
      min (x.toModel.unpack.toInt 0 (UInt64.size - 1)).toNat (UInt64.size - 1) :=
  toNat_ofNatClamp _

theorem toUInt64_of_isNaN (h : x.isNaN = true) : x.toUInt64.toNat = 0 := by
  have hunpack : x.toModel.unpack.isNaN = true := h
  rw [toNat_toUInt64]
  generalize x.toModel.unpack = u at *
  cases u with
  | notANumber => rfl
  | infinity s => exact nomatch hunpack
  | zero s => exact nomatch hunpack
  | finite s m e h => exact nomatch hunpack

theorem isNaN_of_isInf (h : x.isInf = true) : x.isNaN = false := by
  rw [isInf_iff] at h
  rw [← Bool.not_eq_true, isNaN_iff]
  omega

/-- The number of words. -/
theorem value_words : value (Float.ofBits 0x43f0000000000000) = UInt64.size := by
  have hplace : place (Float.ofBits 0x43f0000000000000) = (2 ^ 52 + 1086 * 2 ^ 52 : Nat) := by
    decide
  rw [value_packed hplace (by omega) (fun _ => le_rfl)]
  norm_num [UInt64.size]

theorem word_le_infinity (hx : x.isInf = true) (hnonneg : 0 ≤ value x) :
    ((UInt64.size - 1 : Nat) : ℚ) ≤ value x := by
  have hwords : value (Float.ofBits 0x43f0000000000000) ≤ value x :=
    le_value_of_isInf hx (by decide) (value_zero.trans_le hnonneg) (by decide)
  rw [value_words] at hwords
  exact (Nat.cast_le.mpr (Nat.sub_le _ _)).trans hwords

theorem toUInt64_of_number (hx : x.isNaN = false) :
    x.toUInt64.toNat = min ⌊value x⌋₊ (UInt64.size - 1) := by
  rcases isFinite_or_isInf hx with hfinite | hinf
  · exact toUInt64_toNat hfinite
  · rw [toNat_toUInt64, unpack_of_isInf hinf]
    cases hs : signOf x with
    | positive =>
      have hbeyond := Nat.le_floor (word_le_infinity hinf (value_nonneg_of_positive hs))
      rw [min_eq_right hbeyond]
      exact min_self _
    | negative =>
      rw [Nat.floor_of_nonpos (value_nonpos_of_negative hs)]
      rfl

theorem toUInt64_le (hx : x.isNaN = false) (hy : y.isNaN = false) (h : value x ≤ value y) :
    x.toUInt64.toNat ≤ y.toUInt64.toNat := by
  rw [toUInt64_of_number hx, toUInt64_of_number hy]
  exact min_le_min_right _ (Nat.floor_le_floor h)

theorem le_toUInt64 {k : Nat} (hx : x.isNaN = false) (hk : k < 2 ^ 64)
    (h : (k : ℚ) ≤ value x) : k ≤ x.toUInt64.toNat := by
  rw [toUInt64_of_number hx]
  exact le_min (Nat.le_floor h) (Nat.le_sub_one_of_lt hk)

theorem toUInt64_of_nonpos (h : value x ≤ 0) : x.toUInt64.toNat = 0 := by
  cases hx : x.isNaN with
  | true => exact toUInt64_of_isNaN hx
  | false => rw [toUInt64_of_number hx, Nat.floor_of_nonpos h, Nat.zero_min]

/-! ## Products by positive numbers -/

theorem mul_of_isInf (hx : x.isInf = true) (ha : a.isFinite = true) (hpos : 0 < value a) :
    x * a = x := by
  obtain ⟨m, e, h, hfactor⟩ := unpack_of_pos ha hpos
  change packed (UnpackedFloat.mul .binary64 x.toModel.unpack a.toModel.unpack) = x
  rw [unpack_of_isInf hx, hfactor]
  refine Eq.trans ?_ (packed_of_isInf hx)
  cases signOf x <;> rfl

theorem mul_isNaN (hx : x.isNaN = false) (ha : a.isFinite = true) (hpos : 0 < value a) :
    (x * a).isNaN = false := by
  rcases isFinite_or_isInf hx with hfinite | hinf
  · exact (mul_rounds hfinite ha).isNaN
  · rwa [mul_of_isInf hinf ha hpos]

theorem mul_value_le (hx : x.isNaN = false) (hy : y.isNaN = false) (ha : a.isFinite = true)
    (hpos : 0 < value a) (hxy : value x ≤ value y) : value (x * a) ≤ value (y * a) := by
  refine value_le_of_absorbs (f := (· * a)) (g := (· * a)) ?_ (fun h => mul_isNaN h ha hpos)
    (fun h => mul_isNaN h ha hpos) (fun h => mul_of_isInf h ha hpos)
    (fun h => mul_of_isInf h ha hpos) hx hy hxy
  intro x y hx hy h
  exact (mul_rounds hx ha).value_le (mul_rounds hy ha) (mul_le_mul_of_nonneg_right h hpos.le)

/-- An infinite factor carries every positive number to infinity. -/
theorem mul_infinity_of_pos (hx : x.isNaN = false) (hpos : 0 < value x) (ha : a.isInf = true) :
    x * a = a := by
  change packed (UnpackedFloat.mul .binary64 x.toModel.unpack a.toModel.unpack) = a
  rw [unpack_of_isInf ha]
  refine Eq.trans ?_ (packed_of_isInf ha)
  rcases isFinite_or_isInf hx with hfinite | hinf
  · obtain ⟨m, e, h, hfactor⟩ := unpack_of_pos hfinite hpos
    rw [hfactor]
    cases signOf a <;> rfl
  · rw [unpack_of_isInf hinf, Nonneg.signOf_of_isInf ⟨hx, hpos.le⟩ hinf]
    cases signOf a <;> rfl

/-- Zero times infinity is undefined, and what is negative is carried to the other end. -/
theorem mul_infinity_of_nonpos (hx : value x ≤ 0) (ha : a.isInf = true) (hnonneg : 0 ≤ value a) :
    (x * a).isNaN = true ∨ value (x * a) ≤ 0 := by
  have hsign : signOf a = .positive :=
    Nonneg.signOf_of_isInf ⟨isNaN_of_isInf ha, hnonneg⟩ ha
  change (packed (UnpackedFloat.mul .binary64 x.toModel.unpack a.toModel.unpack)).isNaN = true ∨
    value (packed (UnpackedFloat.mul .binary64 x.toModel.unpack a.toModel.unpack)) ≤ 0
  rw [unpack_of_isInf ha, hsign]
  have hundefined : (packed .notANumber).isNaN = true := by decide
  have hbelow : value (packed (.infinity .negative)) ≤ 0 :=
    value_nonpos_of_negative (packed_infinity .negative).1
  cases hs : signOf x with
  | positive =>
    have hzero : value x = 0 := le_antisymm hx (value_nonneg_of_positive hs)
    rw [unpack_of_zero (value_eq_zero_iff.mp hzero)]
    exact .inl hundefined
  | negative =>
    have hreads := reads x
    rw [hs] at hreads
    generalize magnitude x = g at hreads
    generalize x.toModel.unpack = u at hreads ⊢
    cases hreads with
    | undefined => exact .inl hundefined
    | infinite => exact .inr hbelow
    | zero => exact .inl hundefined
    | finite => exact .inr hbelow

/-! ## Products by what is above one -/

/-- What is above one is above it by more than half of a step. -/
theorem half_step_lt (h : 1 < value x) : 1 + 1 / 2 ^ 53 < value x := by
  have hunits : value x = units (magnitude x) * least := value_of_nonneg (one_pos.trans h).le
  have hone : units (magnitude (Float.ofBits 0x3ff0000000000000)) * least = 1 :=
    (value_of_nonneg (value_one ▸ zero_le_one)).symm.trans value_one
  have hlt : magnitude (Float.ofBits 0x3ff0000000000000) < magnitude x := by
    rw [hunits, ← hone, mul_lt_mul_iff_left₀ least_pos, Nat.cast_lt] at h
    exact units_strictMono.lt_iff_lt.mp h
  have hgap : (units (magnitude x) : ℚ) ≤ 2 ^ 53 * (units (magnitude x) -
      units (magnitude (Float.ofBits 0x3ff0000000000000))) := by
    rw [← Nat.cast_sub (units_strictMono hlt).le]
    exact_mod_cast units_le_gap hlt
  have hscaled := mul_le_mul_of_nonneg_right hgap least_pos.le
  rw [mul_assoc, sub_mul, ← hunits, hone] at hscaled
  linarith

theorem middle_lt_mul {g : Nat} {r : ℚ} (hg : 2 ^ 52 ≤ g) (hr : 1 + 1 / 2 ^ 53 < r) :
    middle g < units g * r := by
  obtain ⟨m, k, rfl, hm, hk⟩ := exists_packed g
  have hnormal : 2 ^ 52 ≤ m := by
    rcases Nat.eq_zero_or_pos k with rfl | hpos
    · omega
    · exact hk hpos
  have hbits : (2 ^ 52 : ℚ) ≤ m := by exact_mod_cast hnormal
  have hstep : (m + 1 / 2 : ℚ) < m * r := by
    have hshare := mul_lt_mul_of_pos_left hr (show (0 : ℚ) < m by linarith)
    linarith
  rw [middle_packed hm hk, units_packed hm.le hk, Nat.cast_mul, Nat.cast_pow, Nat.cast_ofNat,
    mul_right_comm]
  exact mul_lt_mul_of_pos_right hstep (by positivity)

/-- The product of a number that is not below one by what is above one is not rounded down to
that number. -/
theorem lt_mul_value (hx : x.isFinite = true) (hy : y.isFinite = true) (hone : 1 < value x)
    (hle : 1 ≤ value y) : value y < value (x * y) := by
  have hnonneg : 0 ≤ value y := zero_le_one.trans hle
  have hnormal : 2 ^ 52 ≤ magnitude y := by
    have hmagnitude : magnitude (Float.ofBits 0x3ff0000000000000) ≤ magnitude y := by
      rwa [← abs_value_le_iff, value_one, abs_one, abs_of_nonneg hnonneg]
    exact le_trans (by decide) hmagnitude
  have hmiddle := mul_lt_mul_of_pos_right (middle_lt_mul hnormal (half_step_lt hone)) least_pos
  rw [mul_right_comm, ← value_of_nonneg hnonneg, mul_comm (value y)] at hmiddle
  exact (mul_rounds hx hy).lt_value hy hnonneg hmiddle

/-! ## What is cut off of products -/

/-- To multiply by a positive number does not change the order of what is cut off. -/
theorem mul_toUInt64_le (hx : x.isNaN = false) (hy : y.isNaN = false) (ha : a.isNaN = false)
    (hpos : 0 < value a) (hxy : value x ≤ value y) :
    (x * a).toUInt64.toNat ≤ (y * a).toUInt64.toNat := by
  rcases isFinite_or_isInf ha with hfinite | hinf
  · exact toUInt64_le (mul_isNaN hx hfinite hpos) (mul_isNaN hy hfinite hpos)
      (mul_value_le hx hy hfinite hpos hxy)
  · by_cases hsign : 0 < value x
    · rw [mul_infinity_of_pos hx hsign hinf, mul_infinity_of_pos hy (hsign.trans_le hxy) hinf]
    · have hzero : (x * a).toUInt64.toNat = 0 := by
        rcases mul_infinity_of_nonpos (not_lt.mp hsign) hinf hpos.le with hundefined | hnonpos
        · exact toUInt64_of_isNaN hundefined
        · exact toUInt64_of_nonpos hnonpos
      rw [hzero]
      exact Nat.zero_le _

end

end PerfGate.Number
