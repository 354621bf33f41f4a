import PerfGate.Proofs.Number.Sign
import PerfGate.Verdict.Assessment

/-!
# The three classes of a change

Under a valid threshold the four classes are three: whatever is above the threshold is a
regression, so nothing is left to warn about. Against a usable baseline entry the change of a
finite mean is a number whose sign says which of the two means is greater, even if it
overflowed, and no mean that is not greater than its reference regressed.
-/

set_option autoImplicit false

namespace PerfGate

open Number
open SignType (sign)

section
variable {change threshold : Float}

theorem validThreshold_eq_ok_iff :
    validThreshold threshold = .ok () ↔ threshold.isFinite = true ∧ 0.0 ≤ threshold := by
  have hnonneg (h : threshold.isFinite = true) : ¬ threshold < 0.0 ↔ 0.0 ≤ threshold := by
    rw [← not_le_iff_lt (by decide) (isNaN_of_isFinite h), not_not]
  rw [validThreshold]
  split
  next h => exact ⟨fun _ => ⟨h.1, (hnonneg h.1).mp h.2⟩, fun _ => rfl⟩
  next h =>
    exact ⟨(nomatch ·), fun ⟨hfinite, hle⟩ => absurd ⟨hfinite, (hnonneg hfinite).mpr hle⟩ h⟩

theorem validThreshold_eq_error (h : ¬ (threshold.isFinite = true ∧ 0.0 ≤ threshold)) :
    validThreshold threshold = .error (.threshold threshold) := by
  have hnot := h ∘ validThreshold_eq_ok_iff.mp
  rw [validThreshold] at hnot ⊢
  split at hnot
  next => exact absurd rfl hnot
  next hrejected => rw [if_neg hrejected]

/-- A change is above a valid threshold exactly if it is a regression. -/
theorem exceeds_iff (ht : validThreshold threshold = .ok ()) :
    threshold < change.abs ∧ 0.0 < change ↔ threshold < change := by
  obtain ⟨hfinite, hnonneg⟩ := validThreshold_eq_ok_iff.mp ht
  have hthreshold := isNaN_of_isFinite hfinite
  rw [le_iff_value (by decide) hthreshold, value_zero] at hnonneg
  constructor
  · rintro ⟨habove, hpos⟩
    have hchange := (isNaN_of_lt hpos).2
    rw [lt_iff_value (by decide) hchange, value_zero] at hpos
    rw [lt_iff_value hthreshold (abs_isNaN hchange), value_abs hchange, abs_of_pos hpos] at habove
    exact (lt_iff_value hthreshold hchange).mpr habove
  · intro habove
    have hchange := (isNaN_of_lt habove).2
    rw [lt_iff_value hthreshold hchange] at habove
    have hpos : 0 < value change := hnonneg.trans_lt habove
    rw [lt_iff_value hthreshold (abs_isNaN hchange), value_abs hchange, abs_of_pos hpos,
      lt_iff_value (by decide) hchange, value_zero]
    exact ⟨habove, hpos⟩

theorem classify_eq (ht : validThreshold threshold = .ok ()) :
    classify change threshold =
      if threshold < change then .regression
      else if change < -improvementThreshold then .improvement
      else .withinRange := by
  rw [classify]
  by_cases habove : threshold < change
  · rw [if_pos ((exceeds_iff ht).mpr habove), if_pos habove]
  · rw [if_neg (habove ∘ (exceeds_iff ht).mp), if_neg habove, if_neg habove]

/-- No change is above a valid threshold and an improvement at once. -/
theorem not_lt_of_improved (ht : validThreshold threshold = .ok ())
    (h : change < -improvementThreshold) : ¬ threshold < change := by
  obtain ⟨hfinite, hnonneg⟩ := validThreshold_eq_ok_iff.mp ht
  have hthreshold := isNaN_of_isFinite hfinite
  obtain ⟨hchange, himproved⟩ := isNaN_of_lt h
  rw [le_iff (by decide) hthreshold, show place 0.0 = 0 by decide] at hnonneg
  rw [lt_iff hchange himproved] at h
  have hneg : place (-improvementThreshold) < 0 := by decide
  rw [lt_iff hthreshold hchange]
  omega

theorem classify_eq_regression_iff (ht : validThreshold threshold = .ok ()) :
    classify change threshold = .regression ↔ threshold < change := by
  rw [classify_eq ht]
  split
  next habove => exact iff_of_true rfl habove
  next habove => split <;> exact iff_of_false (nomatch ·) habove

theorem classify_eq_improvement_iff (ht : validThreshold threshold = .ok ()) :
    classify change threshold = .improvement ↔ change < -improvementThreshold := by
  rw [classify_eq ht]
  split
  next habove => exact iff_of_false (nomatch ·) fun h => not_lt_of_improved ht h habove
  next =>
    split
    next hbelow => exact iff_of_true rfl hbelow
    next hbelow => exact iff_of_false (nomatch ·) hbelow

theorem classify_ne_warning (change : Float) (ht : validThreshold threshold = .ok ()) :
    classify change threshold ≠ .warning := by
  rw [classify_eq ht]
  split
  next => exact (nomatch ·)
  next => split <;> exact (nomatch ·)

theorem classify_eq_withinRange_iff (ht : validThreshold threshold = .ok ()) :
    classify change threshold = .withinRange ↔
      ¬ threshold < change ∧ ¬ change < -improvementThreshold := by
  have hwarning := classify_ne_warning change ht
  rw [← classify_eq_regression_iff ht, ← classify_eq_improvement_iff ht]
  cases hclass : classify change threshold with
  | warning => exact absurd hclass hwarning
  | regression => decide
  | improvement => decide
  | withinRange => decide

/-! ## Verdicts -/

theorem isRegression_iff (c : Comparison) :
    c.isRegression = true ↔ c.classification = .regression :=
  decide_eq_true_iff

theorem exitCode_eq_one_iff (a : Assessment) :
    a.exitCode = 1 ↔ ∃ c ∈ a.comparisons, c.classification = .regression := by
  have hempty : a.regressed.isEmpty = true ↔
      ¬ ∃ c ∈ a.comparisons, c.classification = .regression := by
    simp [Assessment.regressed, List.filter_eq_nil_iff, isRegression_iff]
  rw [Assessment.exitCode]
  split
  next h => exact iff_of_false (by decide) (hempty.mp h)
  next h => exact iff_of_true rfl (not_not.mp (h ∘ hempty.mpr))

theorem exitCode_cases (a : Assessment) : a.exitCode = 0 ∨ a.exitCode = 1 := by
  rw [Assessment.exitCode]
  split
  next => exact .inl rfl
  next => exact .inr rfl

end

/-! ## Usable entries -/

section
variable {baseline : Baseline} {name : String} {entry : BaselineEntry}

theorem entry_eq_error_of_none (h : baseline.entry? name = none) :
    baseline.entry name = .error (.noBaseline name) := by
  rw [Baseline.entry, h]

theorem entry_eq_error_of_unusable (h : baseline.entry? name = some entry)
    (hmean : ¬ (entry.mean.isFinite = true ∧ 0.0 < entry.mean)) :
    baseline.entry name = .error (.unusableBaseline name entry.mean) := by
  rw [Baseline.entry, h]
  exact if_neg hmean

theorem entry_eq_ok_of_usable (h : baseline.entry? name = some entry)
    (hmean : entry.mean.isFinite = true ∧ 0.0 < entry.mean) : baseline.entry name = .ok entry := by
  rw [Baseline.entry, h]
  exact if_pos hmean

theorem usable_of_entry (h : baseline.entry name = .ok entry) :
    entry.mean.isFinite = true ∧ 0.0 < entry.mean := by
  rw [Baseline.entry] at h
  split at h
  next => exact nomatch h
  next =>
    split at h
    next husable => exact Except.ok.inj h ▸ husable
    next => exact nomatch h

end

/-! ## Changes against a usable reference -/

section
variable {reference current : Float}

/-- The sign of a change is that of the exact difference, which may be too great to be finite. -/
theorem relativeChange_sign (hr : reference.isFinite = true) (hpos : 0.0 < reference)
    (hc : current.isFinite = true) :
    (relativeChange reference current).isNaN = false ∧
      sign (value (relativeChange reference current)) =
        sign (value current - value reference) := by
  rw [lt_iff_value (by decide) (isNaN_of_isFinite hr), value_zero] at hpos
  exact sign_sub_div hc hr hpos

theorem relativeChange_pos_iff (hr : reference.isFinite = true) (hpos : 0.0 < reference)
    (hc : current.isFinite = true) :
    0.0 < relativeChange reference current ↔ reference < current := by
  obtain ⟨hnumber, hsign⟩ := relativeChange_sign hr hpos hc
  rw [lt_iff_value (by decide) hnumber, lt_iff_value (isNaN_of_isFinite hr) (isNaN_of_isFinite hc),
    value_zero, ← sign_eq_one_iff, hsign, sign_eq_one_iff, sub_pos]

theorem relativeChange_beq_zero_iff (hr : reference.isFinite = true) (hpos : 0.0 < reference)
    (hc : current.isFinite = true) :
    (relativeChange reference current == 0.0) = true ↔ (current == reference) = true := by
  obtain ⟨hnumber, hsign⟩ := relativeChange_sign hr hpos hc
  rw [beq_iff_value hnumber (by decide),
    beq_iff_value (isNaN_of_isFinite hc) (isNaN_of_isFinite hr), value_zero,
    ← sign_eq_zero_iff, hsign, sign_eq_zero_iff, sub_eq_zero]

theorem relativeChange_neg_iff (hr : reference.isFinite = true) (hpos : 0.0 < reference)
    (hc : current.isFinite = true) :
    relativeChange reference current < 0.0 ↔ current < reference := by
  obtain ⟨hnumber, hsign⟩ := relativeChange_sign hr hpos hc
  rw [lt_iff_value hnumber (by decide), lt_iff_value (isNaN_of_isFinite hc) (isNaN_of_isFinite hr),
    value_zero, ← sign_eq_neg_one_iff, hsign, sign_eq_neg_one_iff, sub_neg]

/-- A regression is above a threshold that is not negative, so it is slower. -/
theorem lt_of_regression {threshold : Float} (hr : reference.isFinite = true)
    (hpos : 0.0 < reference) (hc : current.isFinite = true)
    (ht : validThreshold threshold = .ok ())
    (h : classify (relativeChange reference current) threshold = .regression) :
    reference < current := by
  have habove := (classify_eq_regression_iff ht).mp h
  exact (relativeChange_pos_iff hr hpos hc).mp ((exceeds_iff ht).mpr habove).2

end

structure Comparison.Faithful (reference current threshold : Float) (c : Comparison) : Prop where
  change : c.change = relativeChange reference current
  change_isNaN : c.change.isNaN = false
  slower : 0.0 < c.change ↔ reference < current
  unchanged : (c.change == 0.0) = true ↔ (current == reference) = true
  faster : c.change < 0.0 ↔ current < reference
  regression : c.classification = .regression ↔ threshold < c.change
  improvement : c.classification = .improvement ↔ c.change < -0.05
  withinRange : c.classification = .withinRange ↔ ¬ threshold < c.change ∧ ¬ c.change < -0.05
  not_warning : c.classification ≠ .warning
  isRegression : c.isRegression = true ↔ c.classification = .regression
  not_slower : current ≤ reference → c.isRegression = false

/-- A comparison with an accepted entry at a valid threshold tells truly whether the mean grew, and
its class is decided by the two limits alone. -/
theorem compareWith_faithful {baseline : Baseline} {name : String} {entry : BaselineEntry}
    {threshold : Float} (hentry : baseline.entry name = .ok entry) (summary : Summary)
    (hmean : summary.mean.isFinite = true) (ht : validThreshold threshold = .ok ()) :
    (compareWith entry summary threshold).Faithful entry.mean summary.mean threshold := by
  obtain ⟨hr, hpos⟩ := usable_of_entry hentry
  exact {
    change := rfl
    change_isNaN := (relativeChange_sign hr hpos hmean).1
    slower := relativeChange_pos_iff hr hpos hmean
    unchanged := relativeChange_beq_zero_iff hr hpos hmean
    faster := relativeChange_neg_iff hr hpos hmean
    regression := classify_eq_regression_iff ht
    improvement := classify_eq_improvement_iff ht
    withinRange := classify_eq_withinRange_iff ht
    not_warning := classify_ne_warning _ ht
    isRegression := isRegression_iff _
    not_slower := fun hle => by
      rw [← Bool.not_eq_true, isRegression_iff]
      intro hregression
      have hslower := lt_of_regression hr hpos hmean ht hregression
      exact (not_le_iff_lt (isNaN_of_isFinite hmean) (isNaN_of_isFinite hr)).mpr hslower hle }

/-- The greatest number against the least positive one: their change is infinite. -/
theorem compareWith_faithful_infinite :
    (compareWith ⟨Float.ofBits 1, 0.0, none, none⟩
      ⟨"bulk", "table", 1, Float.ofBits 0x7fefffffffffffff, 0.0, 0.0, 0.0, 0.0, 0.0⟩ 0.0).Faithful
      (Float.ofBits 1) (Float.ofBits 0x7fefffffffffffff) 0.0 := by
  have hentry : Baseline.entry ⟨"1", "", ⟨"", []⟩,
      [("bulk", ⟨Float.ofBits 1, 0.0, none, none⟩)]⟩ "bulk" =
        .ok ⟨Float.ofBits 1, 0.0, none, none⟩ := rfl
  have hmean : (Float.ofBits 0x7fefffffffffffff).isFinite = true := by decide
  exact compareWith_faithful hentry
    ⟨"bulk", "table", 1, Float.ofBits 0x7fefffffffffffff, 0.0, 0.0, 0.0, 0.0, 0.0⟩ hmean rfl

end PerfGate
