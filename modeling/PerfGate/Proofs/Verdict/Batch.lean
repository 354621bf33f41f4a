import PerfGate.Proofs.Attempts
import PerfGate.Proofs.Commands.Finishing
import PerfGate.Proofs.Commands.Measuring
import PerfGate.Proofs.Commands.Saving

/-!
# Verdicts in a batch and one at a time

A batch of summaries is assessed with all entries or with none: the first summary without a
usable entry ends it. Otherwise the comparisons are those of the summaries taken one at a time.
The check looks up the entries before it measures and compares while it measures; as every
summary carries the name of its benchmark, it comes to the assessment of the batch.
-/

set_option autoImplicit false

namespace PerfGate.Batch

open Attempts Dialogue Finishing Measuring

/-! ## The batch -/

def compareOne (baseline : Baseline) (threshold : Float) (summary : Summary) :
    Except Fault Comparison :=
  (baseline.entry summary.name).map fun entry => compareWith entry summary threshold

theorem compareAll_eq_mapM (baseline : Baseline) (threshold : Float) (summaries : List Summary) :
    Assessment.compareAll baseline threshold summaries =
      summaries.mapM (compareOne baseline threshold) := by
  induction summaries with
  | nil => rfl
  | cons summary rest ih =>
    rw [Assessment.compareAll, List.mapM_cons, ← ih, compareOne]
    cases baseline.entry summary.name <;> rfl

variable {baseline : Baseline} {threshold : Float}

theorem compareOne_eq_ok_iff {summary : Summary} {c : Comparison} :
    compareOne baseline threshold summary = .ok c ↔
      ∃ entry, baseline.entry summary.name = .ok entry ∧
        c = compareWith entry summary threshold := by
  unfold compareOne
  cases baseline.entry summary.name with
  | error cause => simp [Except.map]
  | ok entry => simp [Except.map, eq_comm]

theorem compareOne_eq_error_iff {summary : Summary} {cause : Fault} :
    compareOne baseline threshold summary = .error cause ↔
      baseline.entry summary.name = .error cause := by
  unfold compareOne
  cases baseline.entry summary.name <;> simp [Except.map]

theorem ofSummaries_eq_ok_iff {summaries : List Summary} {a : Assessment} :
    Assessment.ofSummaries baseline summaries threshold = .ok a ↔
      a.threshold = threshold ∧ List.Forall₂
        (fun summary c => ∃ entry, baseline.entry summary.name = .ok entry ∧
          c = compareWith entry summary threshold) summaries a.comparisons := by
  obtain ⟨comparisons, threshold'⟩ := a
  simp only [← compareOne_eq_ok_iff, ← mapM_eq_ok_iff]
  rw [Assessment.ofSummaries, compareAll_eq_mapM]
  cases summaries.mapM (compareOne baseline threshold) with
  | error cause => simp [Except.map]
  | ok found => simp [Except.map, eq_comm, and_comm]

theorem ofSummaries_eq_error_iff {summaries : List Summary} {cause : Fault} :
    Assessment.ofSummaries baseline summaries threshold = .error cause ↔
      ∃ before summary after, summaries = before ++ summary :: after ∧
        (∀ x ∈ before, ∃ entry, baseline.entry x.name = .ok entry) ∧
        baseline.entry summary.name = .error cause := by
  have hmap : Assessment.ofSummaries baseline summaries threshold = .error cause ↔
      summaries.mapM (compareOne baseline threshold) = .error cause := by
    rw [Assessment.ofSummaries, compareAll_eq_mapM]
    cases summaries.mapM (compareOne baseline threshold) <;> simp [Except.map]
  rw [hmap, mapM_eq_error_iff]
  simp [compareOne_eq_ok_iff, compareOne_eq_error_iff]

/-! ## Verdicts -/

theorem regressed_eq (a : Assessment) :
    a.regressed = a.comparisons.filterMap fun c =>
      if c.classification = .regression then some c.name else none := by
  rw [Assessment.regressed]
  induction a.comparisons with
  | nil => rfl
  | cons c rest ih =>
    by_cases h : c.classification = .regression
    · have hc : c.isRegression = true := by simp [Comparison.isRegression, h]
      simp [hc, h, ih]
    · have hc : c.isRegression = false := by simp [Comparison.isRegression, h]
      simp [hc, h, ih]

theorem exitCode_eq (a : Assessment) : a.exitCode = if a.regressed = [] then 0 else 1 := by
  rw [Assessment.exitCode]
  cases a.regressed <;> rfl

/-! ## The check -/

/-- An entry for each benchmark, in the order of the benchmarks. -/
theorem entries_eq_ok_iff {s : CheckSettings} {entries : List BaselineEntry} :
    s.entries baseline = .ok entries ↔
      List.Forall₂ (fun name entry => baseline.entry name = .ok entry) s.benchmarks entries :=
  mapM_eq_ok_iff

theorem entries_exists {s : CheckSettings}
    (h : ∀ name ∈ s.benchmarks, ∃ entry, baseline.entry name = .ok entry) :
    ∃ entries, s.entries baseline = .ok entries := by
  rcases mapM_cases baseline.entry s.benchmarks with
    ⟨entries, hentries, _⟩ | ⟨before, name, after, cause, hnames, _, hname, _⟩
  · exact ⟨entries, entries_eq_ok_iff.mpr hentries⟩
  · obtain ⟨entry, hentry⟩ := h name (by simp [hnames])
    exact nomatch hname.symm.trans hentry

theorem forall₂_zip {names : List String} {entries : List BaselineEntry}
    {measured : List (Summary × Comparison)}
    (hentries : List.Forall₂ (fun name entry => baseline.entry name = .ok entry) names entries)
    (hmeasured : List.Forall₂
      (fun pair m => m.1.name = pair.1 ∧ m.2 = compareWith pair.2 m.1 threshold)
      (names.zip entries) measured) :
    List.Forall₂ (fun summary c => ∃ entry, baseline.entry summary.name = .ok entry ∧
      c = compareWith entry summary threshold) (measured.map (·.1)) (measured.map (·.2)) := by
  induction hentries generalizing measured with
  | nil =>
    cases hmeasured
    exact .nil
  | @cons name entry names entries hentry _ ih =>
    cases hmeasured with
    | cons hm hrest =>
      exact .cons ⟨entry, by rw [hm.1, hentry], hm.2⟩ (ih hrest)

/-- What is told and given at the end of a check is the assessment of its comparisons. -/
theorem finish_assesses {σ : Type} (s : CheckSettings) (machine : Machine σ) (started : Instant)
    (measured : List (Summary × Comparison)) (state : σ) :
    (∀ told, .say (.assessed told) ∈ (s.finish started measured).run.requests machine state →
      told = assessmentOf s measured) ∧
    ∀ code, ((s.finish started measured).run.run machine state).1 = .ok code →
      code = (assessmentOf s measured).exitCode ∧
        .say (.assessed (assessmentOf s measured)) ∈
          (s.finish started measured).run.requests machine state := by
  rcases finish_cases s machine started measured state with
    ⟨next, h⟩ | ⟨_, cause, asked, next, h, hprefix⟩
  · rw [h.run, h.requests]
    refine ⟨fun told htold => ?_, fun code hcode => ⟨(Except.ok.inj hcode).symm, ?_⟩⟩
    · simpa [saving, telling] using htold
    · simp [telling]
  · rw [h.run, h.requests]
    refine ⟨fun told htold => ?_, fun code hcode => nomatch hcode⟩
    have hmem := hprefix.subset htold
    simp [saving] at hmem

/-- Batches and single comparisons agree. -/
theorem assessments_agree (baseline : Baseline) (threshold : Float) :
    (∀ summaries cause, Assessment.ofSummaries baseline summaries threshold = .error cause ↔
      ∃ before summary after, summaries = before ++ summary :: after ∧
        (∀ x ∈ before, ∃ entry, baseline.entry x.name = .ok entry) ∧
        baseline.entry summary.name = .error cause) ∧
    (∀ summaries a, Assessment.ofSummaries baseline summaries threshold = .ok a ↔
      a.threshold = threshold ∧ List.Forall₂
        (fun summary c => ∃ entry, baseline.entry summary.name = .ok entry ∧
          c = compareWith entry summary threshold) summaries a.comparisons) ∧
    (∀ a : Assessment,
      (a.regressed = a.comparisons.filterMap fun c =>
        if c.classification = .regression then some c.name else none) ∧
      a.exitCode = if a.regressed = [] then 0 else 1) ∧
    ∀ s : CheckSettings, s.threshold = threshold →
      (∀ name ∈ s.benchmarks, ∃ entry, baseline.entry name = .ok entry) →
      ∃ entries, s.entries baseline = .ok entries ∧
        ∀ {σ : Type} (machine : Machine σ) (plan : TrialPlan) (state next : σ)
          (measured : List (Summary × Comparison)),
          (s.measureAll plan (s.benchmarks.zip entries)).run.run machine state =
            (.ok measured, next) →
          ∃ a, Assessment.ofSummaries baseline (measured.map (·.1)) threshold = .ok a ∧
            a.comparisons = measured.map (·.2) ∧
            ∀ started,
              (∀ told, .say (.assessed told) ∈
                (s.finish started measured).run.requests machine next → told = a) ∧
              ∀ code, ((s.finish started measured).run.run machine next).1 = .ok code →
                code = a.exitCode ∧
                  .say (.assessed a) ∈ (s.finish started measured).run.requests machine next := by
  refine ⟨fun _ _ => ofSummaries_eq_error_iff, fun _ _ => ofSummaries_eq_ok_iff,
    fun a => ⟨regressed_eq a, exitCode_eq a⟩, ?_⟩
  rintro s rfl hnames
  obtain ⟨entries, hentries⟩ := entries_exists hnames
  refine ⟨entries, hentries, ?_⟩
  intro σ machine plan state next measured hrun
  obtain ⟨asked, hcourse⟩ := course_of_ok hrun
  have hpairs := forall₂_zip (entries_eq_ok_iff.mp hentries) (hcourse.compared rfl)
  exact ⟨assessmentOf s measured, ofSummaries_eq_ok_iff.mpr ⟨rfl, hpairs⟩, rfl,
    fun started => finish_assesses s machine started measured next⟩

def bulkBaseline : Baseline :=
  ⟨"v", "d", ⟨"c", []⟩, [("bulk", ⟨2.0, 0.0, none, none⟩), ("one", ⟨5.0, 0.0, none, none⟩)]⟩

def bulkSettings : CheckSettings :=
  ⟨"baseline.json", 2, 1, 0.1, some "sql", "results", ["bulk", "one"], ({} : Config).clientOf⟩

def steadyMachine : Machine Unit :=
  Saving.obliging "" fun state => (⟨.status 0, "", 3.0⟩, state)

def bulkMeasured : Except Failure (List (Summary × Comparison)) × Unit :=
  (bulkSettings.measureAll ⟨2, 1, Nat.two_pos⟩
    (["bulk", "one"].zip [⟨2.0, 0.0, none, none⟩, ⟨5.0, 0.0, none, none⟩])).run.run steadyMachine ()

theorem bulkMeasured_eq : ∃ measured, bulkMeasured = (.ok measured, ()) ∧
    (measured.map (·.2)).map (fun c => (c.name, c.classification)) =
      [("bulk", .regression), ("one", .improvement)] := by
  have hok : bulkMeasured.1.toOption.map
      (·.map fun m => (m.2.name, m.2.classification)) =
        some [("bulk", .regression), ("one", .improvement)] := by
    decide +kernel
  cases h : bulkMeasured with
  | mk result next =>
    rw [h] at hok
    cases result with
    | error cause => exact nomatch hok
    | ok measured =>
      refine ⟨measured, rfl, ?_⟩
      rw [List.map_map]
      exact Option.some.inj hok

/-- Two benchmarks are measured, one slower than its entry and one faster. -/
theorem assessments_agree_bulk :
    bulkSettings.entries bulkBaseline =
        .ok [⟨2.0, 0.0, none, none⟩, ⟨5.0, 0.0, none, none⟩] ∧
      ∃ measured a, bulkMeasured = (.ok measured, ()) ∧
        Assessment.ofSummaries bulkBaseline (measured.map (·.1)) 0.1 = .ok a ∧
        a.regressed = ["bulk"] ∧ a.exitCode = 1 ∧
        ∀ started told, .say (.assessed told) ∈
          (bulkSettings.finish started measured).run.requests steadyMachine () → told = a := by
  obtain ⟨-, -, hverdict, hcheck⟩ := assessments_agree bulkBaseline 0.1
  have hnames : ∀ name ∈ bulkSettings.benchmarks,
      ∃ entry, bulkBaseline.entry name = .ok entry := by
    intro name hname
    rcases List.mem_pair.mp hname with rfl | rfl
    · exact ⟨⟨2.0, 0.0, none, none⟩, rfl⟩
    · exact ⟨⟨5.0, 0.0, none, none⟩, rfl⟩
  obtain ⟨entries, hentries, hrun⟩ := hcheck bulkSettings rfl hnames
  have hfound : bulkSettings.entries bulkBaseline =
      .ok [⟨2.0, 0.0, none, none⟩, ⟨5.0, 0.0, none, none⟩] := rfl
  obtain rfl := Except.ok.inj (hentries.symm.trans hfound)
  obtain ⟨measured, hmeasured, hclasses⟩ := bulkMeasured_eq
  obtain ⟨a, ha, hcomparisons, htold⟩ := hrun steadyMachine ⟨2, 1, Nat.two_pos⟩ () () measured
    hmeasured
  obtain ⟨hregressed, hcode⟩ := hverdict a
  have hbulk : a.regressed = ["bulk"] := by
    have hlisted := congrArg (List.filterMap fun p : String × Classification =>
      if p.2 = .regression then some p.1 else none) hclasses
    rw [List.filterMap_map] at hlisted
    rw [hregressed, hcomparisons]
    exact hlisted
  refine ⟨hfound, measured, a, hmeasured, ha, hbulk, ?_, fun started => (htold started).1⟩
  rw [hcode, hbulk]
  rfl

end PerfGate.Batch
