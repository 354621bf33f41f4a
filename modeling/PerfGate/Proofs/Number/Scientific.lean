import PerfGate.Proofs.Number.Arithmetic

/-!
# Decimals become the nearest numbers

A whole number times a power of ten is rounded once: by one operation on two numbers that are
exact, or from a significand that is worked out in full. What is too small for that is nearest
to zero. A count is a decimal without places.
-/

set_option autoImplicit false

namespace PerfGate.Number

open Float.Model (UnpackedFloat Format)
open Float.Model.UnpackedFloat

/-! ## Powers of ten -/

theorem powers_units : ∀ e : Fin Float.exactlyRepresentablePowersOfTen.size,
    Float.exactlyRepresentablePowersOfTen[e.val].isFinite = true ∧
      signedUnits (place Float.exactlyRepresentablePowersOfTen[e.val]) =
        (10 ^ e.val * 2 ^ 1074 : Nat) := by
  decide +kernel

/-- The powers of ten up to the twenty-second are numbers. -/
theorem powers_exact {e : Nat} (h : e < Float.exactlyRepresentablePowersOfTen.size) :
    Float.exactlyRepresentablePowersOfTen[e].isFinite = true ∧
      value Float.exactlyRepresentablePowersOfTen[e] = 10 ^ e := by
  obtain ⟨hfinite, hunits⟩ := powers_units ⟨e, h⟩
  refine ⟨hfinite, ?_⟩
  have hvalue := packed_mul_least (10 ^ e) 1074
  rw [Nat.cast_ofNat, sub_self, zpow_zero, mul_one] at hvalue
  rw [value, hunits, Int.cast_natCast, hvalue, Nat.cast_pow, Nat.cast_ofNat]

/-! ## One rounding -/

theorem exact_rounds {m e : Nat} (tenth : Bool) (hm : m < 2 ^ 53) (he : e ≤ 22) :
    Rounds (if tenth then m / 10 ^ e else m * 10 ^ e : ℚ) (Float.ofScientific m tenth e) := by
  obtain ⟨hfinite, hpower⟩ :=
    powers_exact (show e < Float.exactlyRepresentablePowersOfTen.size from Nat.lt_succ_of_le he)
  have hword : m.toUInt64.toNat = m := UInt64.toNat_ofNat_of_lt' (hm.trans (by decide))
  obtain ⟨hvalue, hwhole⟩ := toFloat_value (n := m.toUInt64) (hword.symm ▸ hm)
  rw [Float.ofScientific, dif_pos ⟨hm, he⟩]
  rw [hword] at hvalue
  cases tenth with
  | true =>
    have hround := div_rounds hwhole hfinite (by rw [hpower]; positivity)
    rw [hvalue, hpower] at hround
    exact hround
  | false =>
    have hround := mul_rounds hwhole hfinite
    rw [hvalue, hpower] at hround
    exact hround

/-- A whole number that is written with one place is exact. -/
theorem value_literal (n : Nat) (hn : 10 * n < 2 ^ 53) :
    value (OfScientific.ofScientific (10 * n) true 1) = n := by
  have hrounds := exact_rounds (e := 1) true hn (by omega)
  rw [if_pos rfl, pow_one, Nat.cast_mul, Nat.cast_ofNat, mul_div_cancel_left₀ _ (by norm_num)]
    at hrounds
  exact (hrounds.value_eq_natCast (by omega)).1

theorem ofScientific_raised {m e : Nat} (hm : 0 < m) (he : e ≤ 2 ^ 11) :
    Rounds (m * 10 ^ e) (packed (UnpackedFloat.ofScientific .binary64 m e)) := by
  have hhigh : ¬ (e : Int) > 2 ^ Format.binary64.exponentBits := by
    change ¬ (e : Int) > 2 ^ 11
    omega
  have hlow : ¬ (e : Int) < -((2 ^ Format.binary64.exponentBits : Int) + m.log2) := by
    change ¬ (e : Int) < -((2 ^ 11 : Int) + m.log2)
    omega
  rw [UnpackedFloat.ofScientific, dif_neg hm.ne', if_neg hhigh, if_neg hlow,
    if_pos (Int.natCast_nonneg e)]
  have hten : 0 < 10 ^ e := by positivity
  have hlog : 52 ≤ (m <<< 53 * 10 ^ e).log2 := by
    have hshift := log2_shiftLeft_le (a := 53) hm
    have hpos : 0 < m <<< 53 := Nat.shiftLeft_pos_iff.mpr hm
    rw [Nat.le_log2 (Nat.mul_pos hpos hten).ne']
    exact ((Nat.le_log2 hpos.ne').mp (by omega : 52 ≤ (m <<< 53).log2)).trans
      (Nat.le_mul_of_pos_right _ hten)
  have hround := mul_finite_rounds (s := .positive) (t := .positive) (e := -53) (f := 0)
      (Nat.shiftLeft_pos_iff.mpr hm) hten (.inl hlog)
  have hvalue := shiftLeft_mul_zpow m 53 0
  rw [zpow_zero, mul_one, Nat.cast_ofNat, zero_sub] at hvalue
  rw [signed, signed, hvalue, zpow_zero, mul_one, Nat.cast_pow, Nat.cast_ofNat] at hround
  exact hround

theorem ofScientific_lowered {m e : Nat} (hm : 0 < m) (hpos : 0 < e) (he : e ≤ 2 ^ 11 + m.log2) :
    Rounds (m / 10 ^ e) (packed (UnpackedFloat.ofScientific .binary64 m (-e))) := by
  have hhigh : ¬ (-e : Int) > 2 ^ Format.binary64.exponentBits := by
    change ¬ (-e : Int) > 2 ^ 11
    omega
  have hlow : ¬ (-e : Int) < -((2 ^ Format.binary64.exponentBits : Int) + m.log2) := by
    change ¬ (-e : Int) < -((2 ^ 11 : Int) + m.log2)
    omega
  rw [UnpackedFloat.ofScientific, dif_neg hm.ne', if_neg hhigh, if_neg hlow,
    if_neg (by omega)]
  have hround := div_finite_rounds (s := .positive) (t := .positive) (e := 0) (f := 0) hm
    (show 0 < 10 ^ (- -(e : Int)).toNat by positivity)
  rw [signed, signed, zpow_zero, mul_one, mul_one, neg_neg, Int.toNat_natCast, Nat.cast_pow,
    Nat.cast_ofNat] at hround
  simp only [neg_neg, Int.toNat_natCast] at hround ⊢
  exact hround

/-! ## The nearest number -/

/-- What is below half of the least number vanishes. -/
theorem rounds_zero {q : ℚ} (hq : 0 ≤ q) (hlt : q < least / 2) : Rounds q 0.0 where
  nearest := by
    have hmiddle : middle 0 = 1 / 2 := by norm_num [middle, units]
    have hbelow : |q| / least < middle 0 := by
      rw [abs_of_nonneg hq, hmiddle, div_lt_iff₀ least_pos]
      linarith
    exact ⟨0, ⟨fun h hh => absurd hh (by omega), hbelow.le, fun _ => Even.zero⟩, by decide⟩
  positive _ := by
    rw [signOf, if_pos (by decide)]
  negative hneg := absurd hneg (not_lt.mpr hq)

/-- A power of ten below the range outweighs the digits. -/
theorem scaled_lt_least {m : Nat} {e : Int} (he : e + m.log2 < -400) :
    (m : ℚ) * 10 ^ e < least / 2 := by
  obtain ⟨n, rfl⟩ : ∃ n : Nat, e = -(n + m.log2 + 401 : Nat) :=
    ⟨(-e - m.log2 - 401).toNat, by omega⟩
  have hm : m < 2 ^ (m.log2 + 1) := Nat.lt_log2_self
  generalize m.log2 = l at *
  have hten : (10 : ℚ) ^ (-(n + l + 401 : Nat) : Int) = 1 / 10 ^ (n + l + 401) := by
    rw [zpow_neg, zpow_natCast, one_div]
  have hleast : least / 2 = 1 / 2 ^ 1075 := by
    rw [least, div_eq_mul_inv, ← zpow_neg_one, ← zpow_add₀ two_ne_zero, one_div, ← zpow_natCast,
      ← zpow_neg]
    rfl
  rw [hten, hleast, ← div_eq_mul_one_div, div_lt_div_iff₀ (by positivity) (by positivity), one_mul]
  have hpowers : m * 2 ^ 1075 < 10 ^ (n + l + 401) := by
    calc m * 2 ^ 1075 < 2 ^ (l + 1) * 2 ^ 1075 := Nat.mul_lt_mul_of_pos_right hm (by positivity)
      _ = 2 ^ l * 2 ^ 1076 := by rw [← pow_add, ← pow_add, Nat.add_assoc]
      _ ≤ 10 ^ l * 10 ^ 401 :=
        Nat.mul_le_mul (Nat.pow_le_pow_left (by omega) l) (by decide +kernel)
      _ = 10 ^ (l + 401) := (pow_add 10 l 401).symm
      _ ≤ 10 ^ (n + l + 401) := Nat.pow_le_pow_right (by omega) (by omega)
  exact_mod_cast hpowers

theorem ofScientific_rounds {m : Nat} {e : Int} (hlow : -400 ≤ e + m.log2) (hhigh : e ≤ 400) :
    Rounds (m * 10 ^ e) (Float.ofScientific m (decide (e < 0)) e.natAbs) := by
  by_cases hexact : m < 2 ^ 53 ∧ e.natAbs ≤ 22
  · have hround := exact_rounds (decide (e < 0)) hexact.1 hexact.2
    rcases lt_or_ge e 0 with hneg | hpos
    · obtain ⟨n, rfl⟩ : ∃ n : Nat, e = -n := ⟨(-e).toNat, by omega⟩
      rw [if_pos (decide_eq_true hneg), Int.natAbs_neg, Int.natAbs_natCast] at hround
      rwa [zpow_neg, zpow_natCast, ← div_eq_mul_inv, Int.natAbs_neg, Int.natAbs_natCast]
    · obtain ⟨n, rfl⟩ : ∃ n : Nat, e = n := ⟨e.toNat, by omega⟩
      rw [if_neg (by simp), Int.natAbs_natCast] at hround
      rwa [zpow_natCast, Int.natAbs_natCast]
  · rw [Float.ofScientific, dif_neg hexact]
    rcases Nat.eq_zero_or_pos m with rfl | hm
    · rw [Nat.cast_zero, zero_mul]
      exact rounds_packed_zero .positive
    rcases lt_or_ge e 0 with hneg | hpos
    · obtain ⟨n, rfl⟩ : ∃ n : Nat, e = -n := ⟨(-e).toNat, by omega⟩
      have hround := ofScientific_lowered (e := n) hm (by omega) (by omega)
      rw [decide_eq_true hneg, if_pos rfl, Int.natAbs_neg, Int.natAbs_natCast, Int.negOfNat_eq]
      rwa [zpow_neg, zpow_natCast, ← div_eq_mul_inv]
    · obtain ⟨n, rfl⟩ : ∃ n : Nat, e = n := ⟨e.toNat, by omega⟩
      have hround := ofScientific_raised (e := n) hm (by omega)
      rw [decide_eq_false (by omega), if_neg Bool.false_ne_true, Int.natAbs_natCast]
      rwa [zpow_natCast]

/-! ## Counts -/

theorem ofNat_rounds (n : Nat) : Rounds n (Float.ofNat n) := by
  have hround := ofScientific_rounds (m := n) (e := 0) (by omega) (by decide)
  rwa [zpow_zero, mul_one] at hround

/-- A count of at most 64 bits is a number. -/
theorem ofNat_isFinite {n : Nat} (hlt : n < 2 ^ 64) : (Float.ofNat n).isFinite = true := by
  have hbound : |(n : ℚ)| ≤ (1 : Nat) * 2 ^ 64 := by
    rw [Nat.abs_cast, Nat.cast_one, one_mul]
    exact_mod_cast hlt.le
  exact ((ofNat_rounds n).bounded (by omega) (by omega) hbound).1

theorem one_le_ofNat {n : Nat} (hpos : 0 < n) : 1 ≤ value (Float.ofNat n) := by
  have hone : (1 : ℚ) ≤ n := by exact_mod_cast hpos
  have hle := (ofNat_rounds n).le_value (y := Float.ofBits 0x3ff0000000000000) (by decide)
    (value_one.trans_le hone)
  rwa [value_one] at hle

theorem ofNat_pos {n : Nat} (hpos : 0 < n) (hlt : n < 2 ^ 64) :
    (Float.ofNat n).isFinite = true ∧ 0 < value (Float.ofNat n) :=
  ⟨ofNat_isFinite hlt, one_pos.trans_le (one_le_ofNat hpos)⟩

end PerfGate.Number
