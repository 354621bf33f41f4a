import PerfGate.Proofs.Verdict.Batch
import PerfGate.Proofs.Verdict.Classes

/-!
# Loosening the threshold

A comparison under a greater threshold differs from that under a lesser one in its class alone:
a regression may be forgiven, and what improved is still what improved. Along a run this can only
take names from the list of those that regressed.
-/

set_option autoImplicit false

namespace PerfGate.Loosening

open Attempts Batch Number

section
variable {strict loose : Float}

structure Forgives (c d : Comparison) : Prop where
  name : d.name = c.name
  change : d.change = c.change
  regression : d.classification = .regression → c.classification = .regression
  improvement : d.classification = .improvement ↔ c.classification = .improvement

theorem exceeds_of_le {change : Float} (hs : validThreshold strict = .ok ()) (hle : strict ≤ loose)
    (h : loose < change) : strict < change := by
  have hstrict := isNaN_of_isFinite (validThreshold_eq_ok_iff.mp hs).1
  obtain ⟨hloose, hchange⟩ := isNaN_of_lt h
  rw [le_iff hstrict hloose] at hle
  rw [lt_iff hloose hchange] at h
  rw [lt_iff hstrict hchange]
  omega

theorem compareWith_forgives (hs : validThreshold strict = .ok ())
    (hl : validThreshold loose = .ok ()) (hle : strict ≤ loose) (entry : BaselineEntry)
    (summary : Summary) :
    Forgives (compareWith entry summary strict) (compareWith entry summary loose) where
  name := rfl
  change := rfl
  regression := by
    intro h
    have habove := (classify_eq_regression_iff hl).mp h
    exact (classify_eq_regression_iff hs).mpr (exceeds_of_le hs hle habove)
  improvement := by
    simp only [compareWith]
    rw [classify_eq_improvement_iff hl, classify_eq_improvement_iff hs]

/-! ## A batch -/

theorem mapM_forgives {baseline : Baseline} (hs : validThreshold strict = .ok ())
    (hl : validThreshold loose = .ok ()) (hle : strict ≤ loose) (summaries : List Summary) :
    (∃ cause, summaries.mapM (compareOne baseline strict) = .error cause ∧
      summaries.mapM (compareOne baseline loose) = .error cause) ∨
    ∃ cs ds, summaries.mapM (compareOne baseline strict) = .ok cs ∧
      summaries.mapM (compareOne baseline loose) = .ok ds ∧ List.Forall₂ Forgives cs ds := by
  induction summaries with
  | nil => exact .inr ⟨[], [], rfl, rfl, .nil⟩
  | cons summary rest ih =>
    cases hentry : baseline.entry summary.name with
    | error cause =>
      refine .inl ⟨cause, mapM_first_error rest ?_, mapM_first_error rest ?_⟩
      · exact compareOne_eq_error_iff.mpr hentry
      · exact compareOne_eq_error_iff.mpr hentry
    | ok entry =>
      have hcompared (t : Float) :
          compareOne baseline t summary = .ok (compareWith entry summary t) :=
        compareOne_eq_ok_iff.mpr ⟨entry, hentry, rfl⟩
      rcases ih with ⟨cause, hcs, hds⟩ | ⟨cs, ds, hcs, hds, hall⟩
      · exact .inl ⟨cause, mapM_cons_error (hcompared strict) hcs,
          mapM_cons_error (hcompared loose) hds⟩
      · exact .inr ⟨_, _, mapM_cons_ok (hcompared strict) hcs, mapM_cons_ok (hcompared loose) hds,
          .cons (compareWith_forgives hs hl hle entry summary) hall⟩

variable {cs ds : List Comparison}

theorem regressed_sublist (h : List.Forall₂ Forgives cs ds) :
    (Assessment.regressed ⟨ds, loose⟩).Sublist (Assessment.regressed ⟨cs, strict⟩) := by
  simp only [regressed_eq]
  induction h with
  | nil => exact .slnil
  | @cons c d cs ds hcd _ ih =>
    by_cases hd : d.classification = .regression
    · simpa [hd, hcd.regression hd, hcd.name] using ih
    · by_cases hc : c.classification = .regression
      · simpa [hd, hc] using ih.cons c.name
      · simpa [hd, hc] using ih

theorem exitCode_le {a b : Assessment} (h : b.regressed.Sublist a.regressed) :
    b.exitCode ≤ a.exitCode := by
  rw [exitCode_eq, exitCode_eq]
  by_cases ha : a.regressed = []
  · rw [ha, List.sublist_nil] at h
    simp [ha, h]
  · rw [if_neg ha]
    split <;> omega

theorem changes_eq (h : List.Forall₂ Forgives cs ds) :
    ds.map (·.change) = cs.map (·.change) := by
  induction h with
  | nil => rfl
  | cons hcd _ ih => simp [hcd.change, ih]

theorem improved_iff (h : List.Forall₂ Forgives cs ds) (i : Nat) :
    (ds[i]?).map (·.classification) = some .improvement ↔
      (cs[i]?).map (·.classification) = some .improvement := by
  induction h generalizing i with
  | nil => simp
  | cons hcd _ ih =>
    cases i with
    | zero => simpa using hcd.improvement
    | succ i => simpa using ih i

end

/-- What two thresholds make of one batch: the greater one fails no more benchmarks, in the same
order, and neither the changes nor the improvements depend on it. -/
theorem loosening_forgives (baseline : Baseline) (summaries : List Summary) {strict loose : Float}
    (hs : validThreshold strict = .ok ()) (hl : validThreshold loose = .ok ())
    (hle : strict ≤ loose) :
    (∃ cause, Assessment.ofSummaries baseline summaries strict = .error cause ∧
      Assessment.ofSummaries baseline summaries loose = .error cause) ∨
    ∃ a b, Assessment.ofSummaries baseline summaries strict = .ok a ∧
      Assessment.ofSummaries baseline summaries loose = .ok b ∧
      b.regressed.Sublist a.regressed ∧ b.exitCode ≤ a.exitCode ∧
      b.comparisons.map (·.change) = a.comparisons.map (·.change) ∧
      ∀ i : Nat, (b.comparisons[i]?).map (·.classification) = some .improvement ↔
        (a.comparisons[i]?).map (·.classification) = some .improvement := by
  simp only [Assessment.ofSummaries, compareAll_eq_mapM]
  rcases mapM_forgives hs hl hle summaries with ⟨cause, hcs, hds⟩ | ⟨cs, ds, hcs, hds, hall⟩
  · exact .inl ⟨cause, by rw [hcs]; rfl, by rw [hds]; rfl⟩
  · have hsub : (Assessment.regressed ⟨ds, loose⟩).Sublist (Assessment.regressed ⟨cs, strict⟩) :=
      regressed_sublist hall
    refine .inr ⟨⟨cs, strict⟩, ⟨ds, loose⟩, by rw [hcs]; rfl, by rw [hds]; rfl, hsub, ?_⟩
    exact ⟨exitCode_le hsub, changes_eq hall, improved_iff hall⟩

def exampleBaseline : Baseline :=
  ⟨"1", "", ⟨"", []⟩, [("a", ⟨10.0, 0.0, none, none⟩), ("b", ⟨10.0, 0.0, none, none⟩)]⟩

def exampleSummary (name : String) (mean : Float) : Summary :=
  ⟨name, "table", 1, mean, mean, 0.0, mean, mean, mean⟩

/-- Of two regressions of one benchmark the lesser is forgiven; another one stays improved. -/
theorem loosening_forgives_one :
    ∃ a b, Assessment.ofSummaries exampleBaseline [exampleSummary "a" 11.5, exampleSummary "b" 9.0,
        exampleSummary "a" 13.0] 0.1 = .ok a ∧
      Assessment.ofSummaries exampleBaseline [exampleSummary "a" 11.5, exampleSummary "b" 9.0,
        exampleSummary "a" 13.0] 0.2 = .ok b ∧
      b.regressed.Sublist a.regressed ∧ a.regressed = ["a", "a"] ∧ b.regressed = ["a"] := by
  have hs : validThreshold 0.1 = .ok () := rfl
  have hl : validThreshold 0.2 = .ok () := rfl
  rcases loosening_forgives exampleBaseline [exampleSummary "a" 11.5, exampleSummary "b" 9.0,
      exampleSummary "a" 13.0] hs hl (by decide) with ⟨cause, ha, _⟩ | ⟨a, b, ha, hb, hsub, _⟩
  · exact nomatch ha
  · obtain rfl := Except.ok.inj ha
    obtain rfl := Except.ok.inj hb
    exact ⟨_, _, ha, hb, hsub, by decide +kernel, by decide +kernel⟩

end PerfGate.Loosening
