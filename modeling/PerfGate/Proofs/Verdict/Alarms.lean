import PerfGate.Proofs.Number.Neighbours
import PerfGate.Proofs.Verdict.Classes

/-!
# Alarms hold exactly

A relative change is rounded twice, and the threshold itself is a number that has been rounded.
Up to twice the reference the difference is not rounded at all, and past it the change is above
every threshold that is at most one. So under such a threshold a regression is one in exact
arithmetic, and whatever is above the threshold by a whole step in exact arithmetic is a
regression.
-/

set_option autoImplicit false

namespace PerfGate.Alarms

open Number

section
variable {reference current threshold next : Float}

theorem zero_isFinite : (0.0 : Float).isFinite = true := by decide

theorem one_isFinite : (1.0 : Float).isFinite = true := by decide

/-! ## Changes up to twice the reference -/

theorem relativeChange_rounds (hr : reference.isFinite = true) (hc : current.isFinite = true)
    (hpos : 0 < value reference) (hle : value reference ≤ value current)
    (hdouble : value current ≤ 2 * value reference) :
    Rounds ((value current - value reference) / value reference)
      (relativeChange reference current) := by
  have hexact := sub_value_of_le_double hc hr hpos hle hdouble
  have hfinite : (current - reference).isFinite = true := by
    apply isFinite_between zero_isFinite hr
    · rw [value_zero, hexact]
      linarith
    · rw [hexact]
      linarith
  rw [relativeChange, ← hexact]
  exact div_rounds hfinite hr hpos.ne'

/-! ## Changes past twice the reference -/

theorem reference_le_sub (hr : reference.isFinite = true) (hc : current.isFinite = true)
    (hdouble : 2 * value reference < value current) :
    value reference ≤ value (current - reference) :=
  (sub_rounds hc hr).le_value (isNaN_of_isFinite hr) (by linarith)

theorem one_le_relativeChange (hr : reference.isFinite = true) (hc : current.isFinite = true)
    (hpos : 0 < value reference) (hdouble : 2 * value reference < value current) :
    1 ≤ value (relativeChange reference current) := by
  rw [← div_self_value hr hr hpos rfl]
  exact div_value_le (isNaN_of_isFinite hr) (sub_rounds hc hr).isNaN hr hpos
    (reference_le_sub hr hc hdouble)

theorem value_above_one : value (Float.ofBits 0x3ff0000000000001) = 1 + 1 / 2 ^ 52 := by
  have hplace : place (Float.ofBits 0x3ff0000000000001) =
      ((2 ^ 52 + 1) + 1022 * 2 ^ 52 : Nat) := by
    decide
  rw [value_packed hplace (by omega) (by omega)]
  norm_num

/-- What is next above a number that is not below one exceeds one by a step. -/
theorem value_next_one (ht : 1 ≤ value threshold) (h : Next threshold next) :
    1 + 1 / 2 ^ 52 ≤ value next := by
  obtain ⟨hnumber, hnext⟩ := isNaN_of_lt h.above
  have habove := (lt_iff hnumber hnext).mp h.above
  rw [← value_above_one, value_le_iff_place]
  rw [← value_one, value_le_iff_place] at ht
  have hplaces : place (Float.ofBits 0x3ff0000000000001) =
      place (Float.ofBits 0x3ff0000000000000) + 1 := by
    decide
  omega

/-- A whole step past the double of the reference is not lost by the two roundings. -/
theorem one_lt_relativeChange (hr : reference.isFinite = true) (hc : current.isFinite = true)
    (hpos : 0 < value reference) (hdouble : 2 * value reference < value current)
    (hfar : 1 + 1 / 2 ^ 52 ≤ (value current - value reference) / value reference) :
    1 < value (relativeChange reference current) := by
  rw [le_div_iff₀ hpos] at hfar
  have hdifference : value reference < value (current - reference) := by
    apply lt_sub_value hc hr hpos
    · linarith
    · linarith
  exact one_lt_div_value (sub_rounds hc hr).isNaN hr hpos hdifference

/-! ## Both directions -/

theorem exceeds_exact (hr : reference.isFinite = true) (hc : current.isFinite = true)
    (hpos : 0 < value reference) (hslower : value reference ≤ value current)
    (ht : threshold.isFinite = true) (hone : value threshold ≤ 1)
    (h : value threshold < value (relativeChange reference current)) :
    value threshold * value reference < value current - value reference := by
  -- Past the double the excess is more than the reference, whatever was rounded.
  by_cases hdouble : value current ≤ 2 * value reference
  · have hrounds := relativeChange_rounds hr hc hpos hslower hdouble
    by_contra hle
    have hexact : (value current - value reference) / value reference ≤ value threshold :=
      (div_le_iff₀ hpos).mpr (not_lt.mp hle)
    exact absurd h (not_lt.mpr (hrounds.value_le (rounds_value (isNaN_of_isFinite ht)) hexact))
  · have hscaled : value threshold * value reference ≤ 1 * value reference :=
      mul_le_mul_of_nonneg_right hone hpos.le
    linarith

theorem exceeds_of_next (hr : reference.isFinite = true) (hc : current.isFinite = true)
    (hpos : 0 < value reference) (hzero : 0 ≤ value threshold) (hone : value threshold ≤ 1)
    (hnext : Next threshold next)
    (hfar : value next ≤ (value current - value reference) / value reference) :
    value threshold < value (relativeChange reference current) := by
  obtain ⟨ht, hnumber⟩ := isNaN_of_lt hnext.above
  have habove : value threshold < value next := (lt_iff_value ht hnumber).mp hnext.above
  have hslower : value reference ≤ value current := by
    have hexcess := (le_div_iff₀ hpos).mp hfar
    have hproduct := mul_nonneg (hzero.trans habove.le) hpos.le
    linarith
  -- Past the double the change is at least one, which a threshold of one does not settle.
  by_cases hdouble : value current ≤ 2 * value reference
  · have hrounds := relativeChange_rounds hr hc hpos hslower hdouble
    exact habove.trans_le (hrounds.le_value hnumber hfar)
  · have hpast := not_le.mp hdouble
    by_cases hbelow : value threshold < 1
    · exact hbelow.trans_le (one_le_relativeChange hr hc hpos hpast)
    · have hstep := value_next_one (not_lt.mp hbelow) hnext
      exact hone.trans_lt (one_lt_relativeChange hr hc hpos hpast (hstep.trans hfar))

theorem threshold_values (hzero : 0.0 ≤ threshold) (hone : threshold ≤ 1.0) :
    0 ≤ value threshold ∧ value threshold ≤ 1 := by
  have hnumber := (isNaN_of_le hzero).2
  have hliteral : value 1.0 = 1 := by exact_mod_cast value_literal 1 (by decide)
  rw [le_iff_value (by decide) hnumber, value_zero] at hzero
  rw [le_iff_value hnumber (by decide), hliteral] at hone
  exact ⟨hzero, hone⟩

theorem validThreshold_of_le_one (hzero : 0.0 ≤ threshold) (hone : threshold ≤ 1.0) :
    validThreshold threshold = .ok () := by
  have hnumber := (isNaN_of_le hzero).2
  apply validThreshold_eq_ok_iff.mpr
  refine ⟨?_, hzero⟩
  rw [le_iff_value (by decide) hnumber] at hzero
  rw [le_iff_value hnumber (by decide)] at hone
  exact isFinite_between zero_isFinite one_isFinite hzero hone

end

/-- A regression exceeds the threshold in exact arithmetic; and what is not below the next number
above the threshold in exact arithmetic is a regression. -/
theorem regression_exact {reference current threshold : Float}
    (hr : reference.isFinite = true) (hpos : 0.0 < reference) (hc : current.isFinite = true)
    (hzero : 0.0 ≤ threshold) (hone : threshold ≤ 1.0) :
    (classify (relativeChange reference current) threshold = .regression →
      value threshold * value reference < value current - value reference) ∧
    ∃ next, Next threshold next ∧
      (value next ≤ (value current - value reference) / value reference →
        classify (relativeChange reference current) threshold = .regression) := by
  have hvalid := validThreshold_of_le_one hzero hone
  have ht := (validThreshold_eq_ok_iff.mp hvalid).1
  have hnumber := (relativeChange_sign hr hpos hc).1
  obtain ⟨hlow, hhigh⟩ := threshold_values hzero hone
  have hpositive : 0 < value reference := by
    rwa [lt_iff_value (by decide) (isNaN_of_isFinite hr), value_zero] at hpos
  rw [classify_eq_regression_iff hvalid, lt_iff_value (isNaN_of_isFinite ht) hnumber]
  constructor
  · intro habove
    have hslower : reference < current := by
      rw [← relativeChange_pos_iff hr hpos hc, lt_iff_value (by decide) hnumber, value_zero]
      exact hlow.trans_lt habove
    rw [lt_iff_value (isNaN_of_isFinite hr) (isNaN_of_isFinite hc)] at hslower
    exact exceeds_exact hr hc hpositive hslower.le ht hhigh habove
  · obtain ⟨next, hnext⟩ := exists_next ht hlow
    exact ⟨next, hnext, exceeds_of_next hr hc hpositive hlow hhigh hnext⟩

/-- A single step past the double of the reference: the exact quotient is between two numbers,
and is rounded down to the one that is next above one. -/
theorem regression_exact_past_double :
    ((3.0 : Float).isFinite = true ∧ (0.0 : Float) < 3.0 ∧
      (Float.ofBits 0x4018000000000001).isFinite = true ∧ (0.0 : Float) ≤ 1.0 ∧
      (1.0 : Float) ≤ 1.0) ∧
    classify (relativeChange 3.0 (Float.ofBits 0x4018000000000001)) 1.0 = .regression ∧
    value 1.0 * value 3.0 < value (Float.ofBits 0x4018000000000001) - value 3.0 := by
  have hthreeFinite : (3.0 : Float).isFinite = true := by decide
  have hpos : (0.0 : Float) < 3.0 := by decide
  have hfinite : (Float.ofBits 0x4018000000000001).isFinite = true := by decide
  have hzero : (0.0 : Float) ≤ 1.0 := by decide
  have hone : (1.0 : Float) ≤ 1.0 := by decide
  have hthree : value 3.0 = 3 := by exact_mod_cast value_literal 3 (by decide)
  have hplace : place (Float.ofBits 0x4018000000000001) =
      ((2 ^ 52 + 2 ^ 51 + 1) + 1024 * 2 ^ 52 : Nat) := by
    decide
  have hcurrent := value_packed hplace (by omega) (by omega)
  obtain ⟨hexact, next, hnext, halarm⟩ :=
    regression_exact hthreeFinite hpos hfinite hzero hone
  have hregression := halarm (by
    have habove : (1.0 : Float) < Float.ofBits 0x3ff0000000000001 := by decide
    have hleast := hnext.least _ habove
    rw [le_iff_value (isNaN_of_lt hnext.above).2 (by decide), value_above_one] at hleast
    apply hleast.trans
    rw [hcurrent, hthree]
    norm_num)
  exact ⟨⟨hthreeFinite, hpos, hfinite, hzero, hone⟩, hregression, hexact hregression⟩

end PerfGate.Alarms
