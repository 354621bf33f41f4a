import PerfGate.Proofs.Number.Monotone
import PerfGate.Proofs.Verdict.Classes

/-!
# Slower is never judged better

Against one baseline entry the change of a mean grows with the mean, though the difference and
the quotient are both rounded and may overflow. Under a valid threshold the class of a change
gets worse, or stays the same, as the change grows. So of two means the greater one is never
judged better than the other.
-/

set_option autoImplicit false

namespace PerfGate

open Number

/-! ## Classes from better to worse -/

/-- How bad a class is. A valid threshold leaves the warning out. -/
def Classification.severity : Classification → Nat
  | .improvement => 0
  | .withinRange => 1
  | .warning => 2
  | .regression => 3

theorem Classification.severity_injective : Function.Injective Classification.severity := by
  intro a b h
  cases a <;> cases b <;> first | rfl | cases h

instance : LinearOrder Classification :=
  LinearOrder.lift' Classification.severity Classification.severity_injective

theorem Classification.le_regression (a : Classification) : a ≤ .regression := by
  cases a <;> decide

section
variable {reference current slower change greater threshold : Float}

/-! ## Changes -/

theorem relativeChange_le (hr : reference.isFinite = true) (hpos : 0.0 < reference)
    (hc : current.isFinite = true) (hs : slower.isFinite = true) (hle : current ≤ slower) :
    relativeChange reference current ≤ relativeChange reference slower := by
  have hnumber := (relativeChange_sign hr hpos hc).1
  have hslower := (relativeChange_sign hr hpos hs).1
  rw [le_iff_value (isNaN_of_isFinite hc) (isNaN_of_isFinite hs)] at hle
  rw [lt_iff_value (by decide) (isNaN_of_isFinite hr), value_zero] at hpos
  rw [le_iff_value hnumber hslower]
  have hdifference := sub_value_le hc hs hr hle
  exact div_value_le (sub_rounds hc hr).isNaN (sub_rounds hs hr).isNaN hr hpos hdifference

/-! ## Classes -/

theorem lt_of_lt_of_le (h : threshold < change) (hg : greater.isNaN = false)
    (hle : change ≤ greater) : threshold < greater := by
  obtain ⟨ht, hc⟩ := isNaN_of_lt h
  rw [lt_iff ht hc] at h
  rw [le_iff hc hg] at hle
  rw [lt_iff ht hg]
  omega

theorem lt_of_le_of_lt (hc : change.isNaN = false) (hle : change ≤ greater)
    (h : greater < threshold) : change < threshold := by
  obtain ⟨hg, ht⟩ := isNaN_of_lt h
  rw [lt_iff hg ht] at h
  rw [le_iff hc hg] at hle
  rw [lt_iff hc ht]
  omega

/-- A greater change is in the same class or in a worse one. -/
theorem classify_le (ht : validThreshold threshold = .ok ()) (hc : change.isNaN = false)
    (hg : greater.isNaN = false) (hle : change ≤ greater) :
    classify change threshold ≤ classify greater threshold := by
  rw [classify_eq ht, classify_eq ht]
  by_cases habove : threshold < greater
  · rw [if_pos habove]
    exact Classification.le_regression _
  · have hbelow : ¬ threshold < change := by
      intro h
      exact habove (lt_of_lt_of_le h hg hle)
    rw [if_neg habove, if_neg hbelow]
    by_cases hgreater : greater < -improvementThreshold
    · rw [if_pos hgreater, if_pos (lt_of_le_of_lt hc hle hgreater)]
    · rw [if_neg hgreater]
      split <;> decide

end

/-- Of two comparisons with one entry, that of the greater mean has the greater change and the
worse class, and neither is a warning. -/
theorem slower_not_better {baseline : Baseline} {name : String} {entry : BaselineEntry}
    {threshold : Float} (hentry : baseline.entry name = .ok entry)
    (ht : validThreshold threshold = .ok ()) {first second : Summary}
    (hfirst : first.mean.isFinite = true) (hsecond : second.mean.isFinite = true)
    (hle : first.mean ≤ second.mean) :
    (compareWith entry first threshold).change ≤ (compareWith entry second threshold).change ∧
      (compareWith entry first threshold).classification ≤
        (compareWith entry second threshold).classification ∧
      (compareWith entry first threshold).classification ≠ .warning ∧
      (compareWith entry second threshold).classification ≠ .warning := by
  obtain ⟨hr, hpos⟩ := usable_of_entry hentry
  have hchange := relativeChange_le hr hpos hfirst hsecond hle
  have hnumber := (relativeChange_sign hr hpos hfirst).1
  have hgreater := (relativeChange_sign hr hpos hsecond).1
  exact ⟨hchange, classify_le ht hnumber hgreater hchange, classify_ne_warning _ ht,
    classify_ne_warning _ ht⟩

def summaryOfMean (mean : Float) : Summary := ⟨"bulk", "table", 1, mean, 0.0, 0.0, 0.0, 0.0, 0.0⟩

def leastEntry : BaselineEntry := ⟨Float.ofBits 1, 0.0, none, none⟩

/-- One mean is zero, and the other one is so great that its change is infinite. -/
theorem slower_not_better_infinite :
    (summaryOfMean 0.0).mean ≤ (summaryOfMean (Float.ofBits 0x7fefffffffffffff)).mean ∧
      (compareWith leastEntry (summaryOfMean 0.0) 0.0).classification ≤
        (compareWith leastEntry (summaryOfMean (Float.ofBits 0x7fefffffffffffff))
          0.0).classification := by
  have hentry : Baseline.entry ⟨"1", "", ⟨"", []⟩, [("bulk", leastEntry)]⟩ "bulk" =
      .ok leastEntry := rfl
  have hzero : validThreshold 0.0 = .ok () := rfl
  have hle : (summaryOfMean 0.0).mean ≤ (summaryOfMean (Float.ofBits 0x7fefffffffffffff)).mean := by
    decide
  obtain ⟨-, hclasses, -, -⟩ :=
    slower_not_better hentry hzero (by decide) (by decide) hle
  exact ⟨hle, hclasses⟩

end PerfGate
