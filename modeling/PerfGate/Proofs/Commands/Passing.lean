import PerfGate.Proofs.Commands.Overriding
import PerfGate.Proofs.Verdict.Batch

/-!
# What a passing check has measured

A check that ends with status zero has measured each benchmark of its list, compared it with a
usable entry of the baseline, and told an assessment without a regression. The list is that of
the command line, or that of the configuration if the command line names none. A configuration
may list none either; then a check passes although it has measured nothing.
-/

set_option autoImplicit false

namespace PerfGate.Passing

open CommandLine (CheckOptions Invocation)
open Dialogue Finishing Gate Measuring Overriding

/-! ## Passing -/

structure Passes (s : CheckSettings) (baseline : Baseline)
    (measured : List (Summary × Comparison)) (asked : List Request) : Prop where
  begun : asked.filterMap begun = s.benchmarks
  listed : measured.map (·.1.name) = s.benchmarks
  told : ∀ m ∈ measured, 0 < m.1.n ∧ .say (.compared m.2) ∈ asked
  compared : List.Forall₂
    (fun summary c => ∃ entry, baseline.entry summary.name = .ok entry ∧
      c = compareWith entry summary s.threshold) (measured.map (·.1)) (measured.map (·.2))
  regressed : (assessmentOf s measured).regressed = []
  assessed : .say (.assessed (assessmentOf s measured)) ∈ asked

section
variable {σ : Type} {machine : Machine σ} {state next last : σ} {s : CheckSettings}
  {baseline : Baseline} {measured : List (Summary × Comparison)} {asked loading : List Request}

theorem Passes.measured_eq_nil_iff (h : Passes s baseline measured asked) :
    measured = [] ↔ s.benchmarks = [] := by
  rw [← h.listed, List.map_eq_nil_iff]

theorem Passes.after (h : Passes s baseline measured asked) (hquiet : ∀ r ∈ loading, Quiet r) :
    Passes s baseline measured (loading ++ asked) where
  begun := by rw [List.filterMap_append, begun_of_quiet hquiet, List.nil_append, h.begun]
  listed := h.listed
  told m hm := ⟨(h.told m hm).1, List.mem_append_right _ (h.told m hm).2⟩
  compared := h.compared
  regressed := h.regressed
  assessed := List.mem_append_right _ h.assessed

/-! ## The check -/

/-- A check that gives a status has started, measured all and saved its results. -/
theorem course_of_check {code : Nat} (h : Takes machine s.check state (.ok code) asked last) :
    ∃ (ready : Ready s (baselineContent s machine state)) (started : Instant)
      (measured : List (Summary × Comparison)) (opening measuring : List Request) (begins ends : σ),
      (∀ r ∈ opening, Quiet r) ∧
      Course s ready.plan machine (s.benchmarks.zip ready.entries) begins measured none measuring
        ends ∧
      code = (assessmentOf s measured).exitCode ∧
      asked = opening ++ (measuring ++ (saving s (resultsOf started measured) ++
        telling s (resultsOf started measured) (assessmentOf s measured))) := by
  obtain ⟨start, opening, rest, begins, hstart, hrest, rfl⟩ := h.parts
  obtain ⟨measured, measuring, after, ends, hmeasure, hfinish, rfl⟩ := hrest.parts
  replace hstart := takes_of_within machine hstart
  replace hfinish := takes_of_within machine hfinish
  have hquiet : ∀ r ∈ opening, Quiet r :=
    hstart.requests ▸ (start_quiet s).requests machine state
  rcases start_cases s machine state with
    ⟨ready, started, _, _, hready⟩ | ⟨_, cause, _, _, hfailed⟩
  swap
  · exact nomatch (hstart.unique hfailed).1
  obtain rfl := Except.ok.inj (hstart.unique hready).1
  rcases finish_cases s machine started measured ends with
    ⟨_, hfinished⟩ | ⟨_, cause, _, _, hfailed, _⟩
  swap
  · exact nomatch (hfinish.unique hfailed).1
  obtain ⟨hcode, rfl, _⟩ := hfinish.unique hfinished
  exact ⟨ready, started, measured, opening, measuring, begins, ends, hquiet,
    course_of_takes hmeasure, Except.ok.inj hcode, rfl⟩

theorem passes_of_check (h : Takes machine s.check state (.ok 0) asked last) :
    ∃ (ready : Ready s (baselineContent s machine state))
      (measured : List (Summary × Comparison)), Passes s ready.baseline measured asked := by
  obtain ⟨ready, started, measured, opening, measuring, begins, ends, hquiet, hcourse, hcode,
    rfl⟩ := course_of_check h
  have hcompletes : Completes s started measured _ _ := completes_of_course hquiet hcourse
  refine ⟨ready, measured, hcompletes.begun, hcompletes.listed, ?_, ?_, ?_, ?_⟩
  · intro m hm
    obtain ⟨hpos, hmem⟩ := hcourse.told m hm
    exact ⟨hpos, by simp [hmem]⟩
  · exact Batch.forall₂_zip (Batch.entries_eq_ok_iff.mp ready.found) (hcourse.compared rfl)
  · rw [Batch.exitCode_eq] at hcode
    by_contra hregressed
    rw [if_neg hregressed] at hcode
    exact nomatch hcode
  · simp [telling]

/-- With nothing on its list a check passes as soon as it can start and save. -/
theorem check_of_empty (hnone : s.benchmarks = []) (hsaves : Saves machine)
    (hclear : ¬ Obstacle s (baselineContent s machine state)) :
    ∃ asked last, Takes machine s.check state (.ok 0) asked last := by
  rcases start_cases s machine state with
    ⟨ready, started, opening, begins, hstart⟩ | ⟨hobstacle, _⟩
  swap
  · exact absurd hobstacle hclear
  have hmeasure : Takes machine (s.measureAll ready.plan (s.benchmarks.zip ready.entries)) begins
      (.ok []) [] begins := by
    rw [hnone]
    exact takes_pure machine [] begins
  rcases finish_cases s machine started [] begins with ⟨last, hfinish⟩ | ⟨hnever, _⟩
  · exact ⟨_, last, (takes_within machine .fault hstart).bind_ok
      (hmeasure.bind_ok (takes_within machine .fault hfinish))⟩
  · exact absurd hsaves hnever

/-! ## The program -/

variable {arguments : List String} {i : Invocation} {options : CheckOptions} {c : Config}

theorem program_plays (hparse : CommandLine.parse arguments = .ok i)
    {result : Except Failure Nat} (h : Takes machine i.execute state result asked last) :
    Plays machine (program arguments) state (Ending.ofResult result) asked last := by
  have hplays : Plays machine i.execute.run state result asked last := ⟨h.run, h.requests⟩
  have hwhole := hplays.bind (f := fun result => pure (Ending.ofResult result))
    (plays_pure machine _ last)
  rw [List.append_nil] at hwhole
  rw [program, hparse]
  exact hwhole

theorem execute_of_load (hcommand : i.command = .check options)
    (hload : Takes machine (Config.load i.config) state (.ok c) loading next)
    {result : Except Failure Nat}
    (h : Takes machine (CheckSettings.of c options).check next result asked last) :
    Takes machine i.execute state result (loading ++ asked) last := by
  have hgoes := goesOn_of_load machine hload
  rw [hcommand] at hgoes
  exact hgoes result asked last h

theorem status_eq_zero_iff {result : Except Failure Nat} :
    (Ending.ofResult result).status = 0 ↔ result = .ok 0 := by
  cases result with
  | error failure => simp [Ending.ofResult, Ending.status]
  | ok code => simp [Ending.ofResult, Ending.status]

theorem benchmarks_eq_nil_iff :
    (CheckSettings.of c options).benchmarks = [] ↔
      options.benchmarks = [] ∧ c.check.benchmarks = [] := by
  simp only [CheckSettings.of, List.isEmpty_iff]
  split
  · simp [*]
  · simp [*]

theorem passes_of_program (hparse : CommandLine.parse arguments = .ok i)
    (hcommand : i.command = .check options)
    (h : ((program arguments).run machine state).1.status = 0) :
    ∃ c loading next, Takes machine (Config.load i.config) state (.ok c) loading next ∧
      ∃ (ready : Ready (.of c options) (baselineContent (.of c options) machine next))
        (measured : List (Summary × Comparison)),
        Passes (.of c options) ready.baseline measured
          ((program arguments).requests machine state) := by
  have hexecute := takes_run machine i.execute state
  have hprogram := program_plays hparse hexecute
  rw [hprogram.run, status_eq_zero_iff] at h
  rw [h] at hexecute
  obtain ⟨c, loading, asked, next, hwithin, hcheck, hasked⟩ := hexecute.parts
  rw [hcommand] at hcheck
  obtain ⟨ready, measured, hpasses⟩ := passes_of_check hcheck
  have hload := takes_of_within machine hwithin
  have hquiet : ∀ r ∈ loading, Quiet r :=
    hload.requests ▸ (load_quiet i.config).requests machine state
  refine ⟨c, loading, next, hload, ready, measured, ?_⟩
  rw [hprogram.requests, hasked]
  exact hpasses.after hquiet

theorem program_of_empty (hparse : CommandLine.parse arguments = .ok i)
    (hcommand : i.command = .check options)
    (hload : Takes machine (Config.load i.config) state (.ok c) loading next)
    (hgiven : options.benchmarks = []) (hconfigured : c.check.benchmarks = [])
    (hsaves : Saves machine)
    (hclear : ¬ Obstacle (.of c options) (baselineContent (.of c options) machine next)) :
    ((program arguments).run machine state).1.status = 0 := by
  have hnone : (CheckSettings.of c options).benchmarks = [] :=
    benchmarks_eq_nil_iff.mpr ⟨hgiven, hconfigured⟩
  obtain ⟨asked, last, hcheck⟩ := check_of_empty hnone hsaves hclear
  have hprogram := program_plays hparse (execute_of_load hcommand hload hcheck)
  rw [hprogram.run]
  rfl

end

/-- A check that ends with status zero has measured and compared all benchmarks on its list, and
so at least one exactly if the command line or the configuration lists one. With both lists empty
it passes on every machine on which it can start and save. -/
theorem passing_measures_listed {σ : Type} (machine : Machine σ) (state : σ)
    {arguments : List String} {i : Invocation} {options : CheckOptions}
    (hparse : CommandLine.parse arguments = .ok i) (hcommand : i.command = .check options) :
    (((program arguments).run machine state).1.status = 0 →
      ∃ c loading next, Takes machine (Config.load i.config) state (.ok c) loading next ∧
        ∃ (ready : Ready (.of c options) (baselineContent (.of c options) machine next))
          (measured : List (Summary × Comparison)),
          Passes (.of c options) ready.baseline measured
            ((program arguments).requests machine state) ∧
          (measured ≠ [] ↔ options.benchmarks ≠ [] ∨ c.check.benchmarks ≠ [])) ∧
    ∀ c loading next, Takes machine (Config.load i.config) state (.ok c) loading next →
      options.benchmarks = [] → c.check.benchmarks = [] → Saves machine →
      ¬ Obstacle (.of c options) (baselineContent (.of c options) machine next) →
      ((program arguments).run machine state).1.status = 0 ∧
        ((program arguments).requests machine state).filterMap begun = [] := by
  constructor
  · intro h
    obtain ⟨c, loading, next, hload, ready, measured, hpasses⟩ :=
      passes_of_program hparse hcommand h
    refine ⟨c, loading, next, hload, ready, measured, hpasses, ?_⟩
    rw [ne_eq, hpasses.measured_eq_nil_iff, benchmarks_eq_nil_iff, not_and_or]
  · intro c loading next hload hgiven hconfigured hsaves hclear
    have hfinished := program_of_empty hparse hcommand hload hgiven hconfigured hsaves hclear
    obtain ⟨c', loading', next', hload', ready, measured, hpasses⟩ :=
      passes_of_program hparse hcommand hfinished
    obtain rfl : c = c' := Except.ok.inj (hload.unique hload').1
    exact ⟨hfinished, hpasses.begun.trans (benchmarks_eq_nil_iff.mpr ⟨hgiven, hconfigured⟩)⟩

/-- A benchmark that takes half as long as the baseline says. -/
theorem passing_measures_listed_one :
    let machine := Saving.obliging exampleBaseline fun state : Unit =>
      (⟨.status 0, "", 5.0⟩, state)
    let arguments := ["check", "--sql-dir", "workloads", "--iterations", "1", "a"]
    CommandLine.parse arguments = .ok ⟨false, none, .check exampleOptions⟩ ∧
      ((program arguments).run machine ()).1.status = 0 ∧
      ∃ baseline measured, measured ≠ [] ∧
        Passes (.of {} exampleOptions) baseline measured
          ((program arguments).requests machine ()) := by
  intro machine arguments
  have hparse : CommandLine.parse arguments = .ok ⟨false, none, .check exampleOptions⟩ := by
    cbv
  have hstatus : ((program arguments).run machine ()).1.status = 0 := by decide +kernel
  have hdefaults : Takes machine (Config.load none) () (.ok {}) [.present "tvbench.toml"] () :=
    ⟨rfl, rfl⟩
  obtain ⟨c, loading, next, hload, ready, measured, hpasses, hmeasured⟩ :=
    (passing_measures_listed machine () hparse rfl).1 hstatus
  obtain rfl : {} = c := Except.ok.inj (hdefaults.unique hload).1
  exact ⟨hparse, hstatus, ready.baseline, measured,
    hmeasured.mpr (.inl (List.cons_ne_nil "a" [])), hpasses⟩

/-! ## An empty list -/

def unlisted : Machine Unit where
  answer
    | .read path, state =>
      (.ok (if path = Config.defaultFile then "[regression]\nbenchmarks = []"
        else exampleBaseline), state)
    | .present _, state => (true, state)
    | .makeDirectory _, state => (.ok (), state)
    | .write _ _, state => (.ok (), state)
    | .execute _ _, state => (.ok ⟨.status 0, "", 0.0⟩, state)
    | .now, state => (⟨0, 0⟩, state)
    | .word, state => ((0 : UInt64), state)
    | .say _, state => ((), state)

def printed : Request → Option String
  | .say notice => some notice.text
  | _ => none

/-- The check passes and says so, and has measured nothing. -/
theorem passing_without_benchmarks :
    let asked := (program ["check"]).requests unlisted ()
    ((program ["check"]).run unlisted ()).1.status = 0 ∧
      (asked.filterMap printed).getLast? = some ("\n" ++ Assessment.rule ++ "\nSUMMARY\n" ++
        Assessment.rule ++ "\n\n✅ All benchmarks passed. No regressions detected.\n") ∧
      ∀ r ∈ asked, measures r = false := by
  decide +kernel

end PerfGate.Passing
