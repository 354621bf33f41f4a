import PerfGate.Proofs.Number.Defined

/-!
# Signs of differences and quotients

The difference of two numbers is on the grid before it is rounded, and rounding loses at most
half of it. Divided by the number that was taken off it is far too large to vanish, so the sign
of a relative change is that of the exact difference, even if the difference overflows.
-/

set_option autoImplicit false

namespace PerfGate.Number

open SignType (sign)

section
variable {x y : Float} {q : ℚ}

/-! ## Signs of rounded numbers -/

theorem sign_value (x : Float) : sign (value x) = sign (place x) := by
  rcases lt_trichotomy (place x) 0 with h | h | h
  · have hlt : signedUnits (place x) < 0 := signedUnits_strictMono h
    rw [sign_neg h, value, sign_neg (mul_neg_of_neg_of_pos (by exact_mod_cast hlt) least_pos)]
  · rw [value_eq_zero h, h, sign_zero, sign_zero]
  · have hlt : 0 < signedUnits (place x) := signedUnits_strictMono h
    rw [sign_pos h, value, sign_pos (mul_pos (by exact_mod_cast hlt) least_pos)]

/-- What is rounded keeps its sign unless it vanishes. -/
theorem Rounds.sign_value (h : Rounds q x) (hx : q ≠ 0 → 0 < magnitude x) :
    sign (value x) = sign q := by
  rw [Number.sign_value]
  rcases lt_trichotomy q 0 with hq | rfl | hq
  · rw [h.place_of_neg hq, sign_neg hq, sign_neg (by have := hx hq.ne; omega)]
  · rw [h.place_of_nonneg le_rfl, h.magnitude_eq_zero]
    rfl
  · rw [h.place_of_nonneg hq.le, sign_pos hq, sign_pos (by have := hx hq.ne'; omega)]

theorem Rounds.magnitude_pos (h : Rounds q x) (hq : least / 2 < |q|) : 0 < magnitude x := by
  obtain ⟨g, hg, hmagnitude⟩ := h.nearest
  have hpos : 0 < g := hg.pos <| by
    rw [lt_div_iff₀ least_pos]
    linarith
  have hi : infinityWord = 2047 * 2 ^ 52 := rfl
  omega

/-- Rounding to a finite number loses at most half of a whole number of units. -/
theorem Rounds.le_two_mul_abs {n : ℤ} (h : Rounds (n * least) x) (hx : x.isFinite = true) :
    |(n : ℚ)| * least ≤ 2 * |value x| := by
  obtain ⟨g, hg, hmagnitude⟩ := h.nearest
  have hlt := isFinite_iff.mp hx
  obtain rfl : g = magnitude x := by omega
  rw [abs_mul, abs_of_pos least_pos, mul_div_cancel_right₀ _ least_pos.ne', ← Int.cast_abs,
    Int.abs_eq_natAbs, Int.cast_natCast] at hg
  have hle : (n.natAbs : ℚ) ≤ 2 * units (magnitude x) := by exact_mod_cast hg.le_two_mul_units
  rw [abs_value, ← mul_assoc, ← Int.cast_abs, Int.abs_eq_natAbs, Int.cast_natCast]
  exact mul_le_mul_of_nonneg_right hle least_pos.le

/-! ## Differences -/

/-- A point of the grid is not much greater than its distance from any other one. -/
theorem signedUnits_le_gap {p q : ℤ} (hq : 0 < q) (hne : p ≠ q) :
    signedUnits q ≤ 2 ^ 53 * |signedUnits p - signedUnits q| := by
  obtain ⟨h, rfl⟩ : ∃ h : ℕ, q = h := ⟨q.toNat, by omega⟩
  rcases lt_or_ge p 0 with hneg | hnonneg
  · have hp : signedUnits p < 0 := signedUnits_strictMono hneg
    have hh : 0 < signedUnits h := signedUnits_strictMono hq
    rw [abs_of_neg (by omega)]
    omega
  · obtain ⟨g, rfl⟩ : ∃ g : ℕ, p = g := ⟨p.toNat, by omega⟩
    rw [signedUnits_natCast, signedUnits_natCast]
    rcases lt_or_gt_of_ne (show g ≠ h by omega) with hlt | hlt
    · have hunits := units_strictMono hlt
      have hgap := units_le_gap hlt
      rw [abs_of_neg (by omega)]
      omega
    · have hunits := units_strictMono hlt
      have hgap := units_le_gap hlt
      rw [abs_of_pos (by omega)]
      omega

theorem sub_rounds_units (hx : x.isFinite = true) (hy : y.isFinite = true) :
    Rounds ((signedUnits (place x) - signedUnits (place y) : ℤ) * least) (x - y) := by
  rw [Int.cast_sub, sub_mul]
  exact sub_rounds hx hy

/-- A positive number is not much greater than its distance from any other one. -/
theorem value_le_gap (hpos : 0 < value y) (hne : value x ≠ value y) :
    value y ≤ 2 ^ 53 * |value x - value y| := by
  have hplace : 0 < place y := by
    rw [← sign_eq_one_iff, ← sign_value, sign_pos hpos]
  have hgap := signedUnits_le_gap hplace (p := place x) (fun h => hne (by rw [value, h, value]))
  calc value y ≤ (2 ^ 53 * |signedUnits (place x) - signedUnits (place y)| : ℤ) * least :=
        mul_le_mul_of_nonneg_right (by exact_mod_cast hgap) least_pos.le
    _ = 2 ^ 53 * |value x - value y| := by
        rw [value, value, ← sub_mul, abs_mul, abs_of_pos least_pos]
        push_cast
        ring

/-- A finite difference that is not zero is not negligible beside what was taken off. -/
theorem le_abs_sub (hx : x.isFinite = true) (hy : y.isFinite = true) (hpos : 0 < value y)
    (hne : value x ≠ value y) (hxy : (x - y).isFinite = true) :
    value y ≤ 2 ^ 54 * |value (x - y)| := by
  have hgap := value_le_gap hpos hne
  have hle := (sub_rounds_units hx hy).le_two_mul_abs hxy
  have hunits : |((signedUnits (place x) - signedUnits (place y) : ℤ) : ℚ)| * least =
      |value x - value y| := by
    rw [value, value, ← sub_mul, ← Int.cast_sub, abs_mul, abs_of_pos least_pos]
  rw [hunits] at hle
  linarith

theorem sign_sub (hx : x.isFinite = true) (hy : y.isFinite = true) :
    sign (value (x - y)) = sign (value x - value y) := by
  refine (sub_rounds hx hy).sign_value fun hne => (sub_rounds hx hy).magnitude_pos ?_
  have hunits : signedUnits (place x) - signedUnits (place y) ≠ 0 := fun h => hne <| by
    rw [value, value, ← sub_mul, ← Int.cast_sub, h, Int.cast_zero, zero_mul]
  have hone : (1 : ℚ) ≤ |((signedUnits (place x) - signedUnits (place y) : ℤ) : ℚ)| := by
    exact_mod_cast Int.one_le_abs hunits
  rw [value, value, ← sub_mul, ← Int.cast_sub, abs_mul, abs_of_pos least_pos]
  exact (half_lt_self least_pos).trans_le (le_mul_of_one_le_left least_pos.le hone)

/-! ## Relative changes -/

theorem least_mul_lt : least * 2 ^ 54 < 1 := by
  rw [least, ← zpow_natCast, ← zpow_add₀ two_ne_zero]
  exact zpow_lt_one_of_neg₀ one_lt_two (by decide)

/-- The sign of a relative change is that of the exact difference. -/
theorem sign_sub_div (hx : x.isFinite = true) (hy : y.isFinite = true) (hpos : 0 < value y) :
    ((x - y) / y).isNaN = false ∧
      sign (value ((x - y) / y)) = sign (value x - value y) := by
  have hdifference := sign_sub hx hy
  refine ⟨div_isNaN (sub_rounds hx hy).isNaN hy hpos, ?_⟩
  rcases isFinite_or_isInf (sub_rounds hx hy).isNaN with hfinite | hinf
  · have hround := div_rounds hfinite hy hpos.ne'
    have hsign : sign (value (x - y) / value y) = sign (value (x - y)) := by
      rw [div_eq_mul_inv, sign_mul, sign_pos (inv_pos.mpr hpos), mul_one]
    refine (hround.sign_value fun hne => hround.magnitude_pos ?_).trans (hsign.trans hdifference)
    have hvalues : value x ≠ value y := fun heq => by
      rw [heq, sub_self, sign_zero, sign_eq_zero_iff] at hdifference
      exact hne (by rw [hdifference, zero_div])
    have hle := le_abs_sub hx hy hpos hvalues hfinite
    rw [abs_div, abs_of_pos hpos, lt_div_iff₀ hpos]
    have habs : 0 < |value (x - y)| := abs_pos.mpr fun hzero => hne (by rw [hzero, zero_div])
    calc least / 2 * value y ≤ least / 2 * (2 ^ 54 * |value (x - y)|) :=
          mul_le_mul_of_nonneg_left hle (half_pos least_pos).le
      _ = least * 2 ^ 54 * (|value (x - y)| / 2) := by ring
      _ < |value (x - y)| / 2 := mul_lt_of_lt_one_left (half_pos habs) least_mul_lt
      _ < |value (x - y)| := half_lt_self habs
  · rw [div_of_isInf hinf hy hpos]
    exact hdifference

end

end PerfGate.Number
