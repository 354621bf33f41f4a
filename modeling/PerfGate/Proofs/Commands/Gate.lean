import PerfGate.Commands.Program
import PerfGate.Proofs.Attempts
import PerfGate.Proofs.Commands.Finishing
import PerfGate.Proofs.Commands.Measuring
import PerfGate.Proofs.Number.Order
import PerfGate.Proofs.Results.Listing

/-!
# The gate

A check either meets an obstacle before its first measurement, or stops at the first
measurement that fails, or measures everything and writes one results file. Which of the three
it is, what has been asked of the machine by then, and the status follow from the settings, the
content of the baseline file and the outcomes of the measurements.
-/

set_option autoImplicit false

namespace PerfGate.Gate

open Attempts Dialogue Finishing Measuring

/-! ## What a check needs -/

inductive Obstacle (s : CheckSettings) (content : Except FileFault String) : Prop where
  | undefinedThreshold (h : s.threshold.isNaN = true)
  | infiniteThreshold (h : s.threshold.isInf = true)
  | negativeThreshold (h : s.threshold < 0.0)
  | noIterations (h : s.iterations = 0)
  | unread {cause : FileFault} (h : content = .error cause)
  | unparsed {text : String} {cause : Json.Fault} (h : content = .ok text)
      (broken : Baseline.parse text = .error cause)
  | noEntry {text benchmark : String} {baseline : Baseline} (h : content = .ok text)
      (parsed : Baseline.parse text = .ok baseline) (listed : benchmark ∈ s.benchmarks)
      (missing : baseline.entry? benchmark = none)
  | unusableEntry {text benchmark : String} {baseline : Baseline} {entry : BaselineEntry}
      (h : content = .ok text) (parsed : Baseline.parse text = .ok baseline)
      (listed : benchmark ∈ s.benchmarks) (found : baseline.entry? benchmark = some entry)
      (unusable : ¬ (entry.mean.isFinite = true ∧ 0.0 < entry.mean))

structure Ready (s : CheckSettings) (content : Except FileFault String) where
  plan : TrialPlan
  text : String
  baseline : Baseline
  entries : List BaselineEntry
  planned : s.plan = .ok plan
  read : content = .ok text
  parsed : Baseline.parse text = .ok baseline
  found : s.entries baseline = .ok entries

theorem plan_cases (s : CheckSettings) :
    (∃ plan, s.plan = .ok plan ∧ s.threshold.isFinite = true ∧ ¬ s.threshold < 0.0 ∧
      s.iterations ≠ 0) ∨
    ∃ cause, s.plan = .error cause ∧
      (¬ s.threshold.isFinite = true ∨ s.threshold < 0.0 ∨ s.iterations = 0) := by
  by_cases ht : s.threshold.isFinite = true ∧ ¬ s.threshold < 0.0
  · by_cases hi : 0 < s.iterations
    · refine .inl ⟨⟨s.iterations, s.warmup, hi⟩, ?_, ht.1, ht.2, Nat.ne_of_gt hi⟩
      simp only [CheckSettings.plan, validThreshold, if_pos ht, TrialPlan.of?, dif_pos hi]
      rfl
    · refine .inr ⟨.setting .noIterations, ?_, .inr (.inr (Nat.eq_zero_of_not_pos hi))⟩
      simp only [CheckSettings.plan, validThreshold, if_pos ht, TrialPlan.of?, dif_neg hi]
      rfl
  · refine .inr ⟨.setting (.threshold s.threshold), ?_, ?_⟩
    · simp only [CheckSettings.plan, validThreshold, if_neg ht]
      rfl
    · rw [not_and_or, not_not] at ht
      rcases ht with h | h
      · exact .inl h
      · exact .inr (.inl h)

theorem entry_eq_error_iff {baseline : Baseline} {benchmark : String} :
    (∃ cause, baseline.entry benchmark = .error cause) ↔
      baseline.entry? benchmark = none ∨ ∃ entry, baseline.entry? benchmark = some entry ∧
        ¬ (entry.mean.isFinite = true ∧ 0.0 < entry.mean) := by
  unfold Baseline.entry
  cases baseline.entry? benchmark with
  | none => simp
  | some entry =>
    by_cases h : entry.mean.isFinite = true ∧ 0.0 < entry.mean
    · simp only [if_pos h]
      simp [h]
    · simp only [if_neg h]
      exact ⟨fun _ => .inr ⟨entry, rfl, h⟩, fun _ => ⟨_, rfl⟩⟩

variable {s : CheckSettings} {content : Except FileFault String}

theorem Ready.no_obstacle (ready : Ready s content) : ¬ Obstacle s content := by
  intro h
  rcases plan_cases s with ⟨plan, _, hfinite, hsign, hiterations⟩ | ⟨cause, hplan, _⟩
  swap
  · exact nomatch ready.planned.symm.trans hplan
  have husable : ∀ benchmark ∈ s.benchmarks,
      ¬ ∃ cause, ready.baseline.entry benchmark = .error cause := by
    rintro benchmark hb ⟨cause, hcause⟩
    obtain ⟨entry, hentry⟩ := ok_of_mem (mapM_eq_ok_iff.mp ready.found) hb
    exact nomatch hentry.symm.trans hcause
  cases h with
  | undefinedThreshold h => exact Number.not_isFinite_iff.mpr (.inl h) hfinite
  | infiniteThreshold h => exact Number.not_isFinite_iff.mpr (.inr h) hfinite
  | negativeThreshold h => exact hsign h
  | noIterations h => exact hiterations h
  | unread h => exact nomatch ready.read.symm.trans h
  | unparsed h broken =>
    obtain rfl := Except.ok.inj (ready.read.symm.trans h)
    exact nomatch ready.parsed.symm.trans broken
  | noEntry h parsed listed missing =>
    obtain rfl := Except.ok.inj (ready.read.symm.trans h)
    obtain rfl := Except.ok.inj (ready.parsed.symm.trans parsed)
    exact husable _ listed (entry_eq_error_iff.mpr (.inl missing))
  | unusableEntry h parsed listed found unusable =>
    obtain rfl := Except.ok.inj (ready.read.symm.trans h)
    obtain rfl := Except.ok.inj (ready.parsed.symm.trans parsed)
    exact husable _ listed (entry_eq_error_iff.mpr (.inr ⟨_, found, unusable⟩))

/-! ## How a check starts -/

def baselineContent {σ : Type} (s : CheckSettings) (machine : Machine σ) (state : σ) :
    Except FileFault String :=
  (machine.answer (.read s.baseline)
    (machine.answer (.say .checkBegins) (machine.answer .now state).2).2).1

/-- Nothing is measured and no file is changed. -/
def Quiet (r : Request) : Prop := measures r = false ∧ writes r = false

def answered (path : String) : Except FileFault String → Except Fault Baseline
  | .error .notFound => .error (.baselineNotFound path)
  | content => Document.decoded path Baseline.parse content

/-- A baseline is given exactly if its file can be read and parsed. -/
theorem answered_cases (path : String) (content : Except FileFault String) :
    (∃ text baseline, content = .ok text ∧ Baseline.parse text = .ok baseline ∧
      answered path content = .ok baseline) ∨
    ((∃ cause, content = .error cause) ∨
      ∃ text cause, content = .ok text ∧ Baseline.parse text = .error cause) ∧
      ∃ cause, answered path content = .error cause := by
  cases content with
  | error cause => exact .inr ⟨.inl ⟨cause, rfl⟩, by cases cause <;> exact ⟨_, rfl⟩⟩
  | ok text =>
    change _ ∨ _ ∧ ∃ cause, Document.decoded path Baseline.parse (.ok text) = .error cause
    cases hparse : Baseline.parse text with
    | error cause =>
      exact .inr ⟨.inr ⟨text, cause, rfl, hparse⟩, by simp [Document.decoded, hparse]⟩
    | ok baseline =>
      refine .inl ⟨text, baseline, rfl, hparse, ?_⟩
      change Document.decoded path Baseline.parse (.ok text) = .ok baseline
      simp [Document.decoded, hparse]

def remark : Except Fault Baseline → Dialogue Unit
  | .error (.baselineNotFound path) => say (.noBaseline path)
  | .error _ => pure ()
  | .ok b => say (.baseline b.version b.date b.hardware.cpu)

theorem told_eq (result : Except Fault Baseline) :
    (do
      match result with
      | .error (.baselineNotFound path) => say (.noBaseline path)
      | .error _ => pure ()
      | .ok b => say (.baseline b.version b.date b.hardware.cpu)
      return result : Dialogue (Except Fault Baseline)) =
      (remark result).bind fun _ => .done result := by
  cases result with
  | ok b => rfl
  | error cause => cases cause <;> rfl

theorem loadBaseline_eq (s : CheckSettings) :
    s.loadBaseline.run = .ask (.read s.baseline) fun content =>
      (remark (answered s.baseline content)).bind fun _ =>
        .done (answered s.baseline content) := by
  refine congrArg (Dialogue.ask _) (funext fun content => ?_)
  cases content with
  | error cause => cases cause <;> rfl
  | ok text => exact told_eq _

theorem remark_quiet (result : Except Fault Baseline) :
    (remark result).Ensures Quiet fun _ => True := by
  unfold remark
  split
  · exact ensures_request ⟨rfl, rfl⟩
  · trivial
  · exact ensures_request ⟨rfl, rfl⟩

theorem loadBaseline_quiet (s : CheckSettings) : Obeys Quiet (fun _ => True) s.loadBaseline := by
  rw [Obeys, loadBaseline_eq]
  refine ⟨⟨rfl, rfl⟩, fun content => (remark_quiet _).bind fun _ _ => ?_⟩
  exact fun _ _ => trivial

theorem request_quiet {r : Request} (h : Quiet r) :
    Obeys Quiet (fun _ => True) (ExceptT.lift (Dialogue.request r) : Job r.Answer) :=
  obeys_lift (ensures_request h)

theorem start_quiet (s : CheckSettings) : Obeys Quiet (fun _ => True) s.start := by
  refine (obeys_of_except fun _ _ => trivial).bind fun plan (_ : True) => ?_
  refine (request_quiet ⟨rfl, rfl⟩).bind fun started _ => ?_
  refine (request_quiet ⟨rfl, rfl⟩).bind fun _ _ => ?_
  refine (loadBaseline_quiet s).bind fun baseline _ => ?_
  refine (obeys_of_except fun _ _ => trivial).bind fun entries (_ : True) => ?_
  exact Obeys.pure trivial

theorem loadBaseline_takes {σ : Type} (s : CheckSettings) (machine : Machine σ) (state : σ) :
    ∃ asked next, Takes machine s.loadBaseline state
      (answered s.baseline (machine.answer (.read s.baseline) state).1) asked next := by
  have htakes := takes_run machine s.loadBaseline state
  have hresult : (s.loadBaseline.run.run machine state).1 =
      answered s.baseline (machine.answer (.read s.baseline) state).1 := by
    rw [loadBaseline_eq]
    exact congrArg Prod.fst (run_bind machine (remark _) (fun _ => .done _) _)
  rw [hresult] at htakes
  exact ⟨_, _, htakes⟩

/-- A check starts with all that it needs, or it meets an obstacle and fails. -/
theorem start_cases {σ : Type} (s : CheckSettings) (machine : Machine σ) (state : σ) :
    (∃ (ready : Ready s (baselineContent s machine state)) (started : Instant)
        (asked : List Request) (next : σ),
      Takes machine s.start state (.ok ⟨ready.plan, started, ready.entries⟩) asked next) ∨
    Obstacle s (baselineContent s machine state) ∧ ∃ cause asked next,
      Takes machine s.start state (.error cause) asked next := by
  rcases plan_cases s with ⟨plan, hplan, _⟩ | ⟨cause, hplan, hwhy⟩
  swap
  · refine .inr ⟨?_, cause, _, _, (takes_except machine hplan state).bind_error⟩
    rcases hwhy with h | h | h
    · rcases Number.not_isFinite_iff.mp h with h | h
      · exact .undefinedThreshold h
      · exact .infiniteThreshold h
    · exact .negativeThreshold h
    · exact .noIterations h
  have hplanned := takes_except machine hplan state
  have hnow := takes_request (ε := Fault) machine .now state
  have hbegins := takes_request (ε := Fault) machine (.say .checkBegins)
    (machine.answer .now state).2
  obtain ⟨asked, loaded, hload⟩ := loadBaseline_takes s machine
    (machine.answer (.say .checkBegins) (machine.answer .now state).2).2
  change Takes machine s.loadBaseline _ (answered s.baseline (baselineContent s machine state))
    asked loaded at hload
  rcases answered_cases s.baseline (baselineContent s machine state) with
    ⟨text, baseline, hread, hparsed, hanswer⟩ | ⟨hwhy, cause, hanswer⟩
  swap
  · rw [hanswer] at hload
    refine .inr ⟨?_, cause, _, _,
      hplanned.bind_ok (hnow.bind_ok (hbegins.bind_ok hload.bind_error))⟩
    rcases hwhy with ⟨cause, h⟩ | ⟨text, cause, h, broken⟩
    · exact .unread h
    · exact .unparsed h broken
  rw [hanswer] at hload
  rcases mapM_cases baseline.entry s.benchmarks with
    ⟨entries, _, hfound⟩ | ⟨before, benchmark, after, cause, hlist, _, hbad, hfound⟩
  · exact .inl ⟨⟨plan, text, baseline, entries, hplan, hread, hparsed, hfound⟩, _, _, _,
      hplanned.bind_ok (hnow.bind_ok (hbegins.bind_ok (hload.bind_ok
        ((takes_except machine hfound loaded).bind_ok (takes_pure machine _ loaded)))))⟩
  · refine .inr ⟨?_, cause, _, _, hplanned.bind_ok (hnow.bind_ok (hbegins.bind_ok
      (hload.bind_ok (takes_except machine hfound loaded).bind_error)))⟩
    have hlisted : benchmark ∈ s.benchmarks := by simp [hlist]
    rcases entry_eq_error_iff.mp ⟨cause, hbad⟩ with hnone | ⟨entry, hsome, hunusable⟩
    · exact .noEntry hread hparsed hlisted hnone
    · exact .unusableEntry hread hparsed hlisted hsome hunusable

/-! ## The check as a whole -/

theorem exitCode_assessed (s : CheckSettings) (measured : List (Summary × Comparison)) :
    (assessmentOf s measured).exitCode =
      if ∃ m ∈ measured, m.2.classification = .regression then 1 else 0 := by
  have hregressed : (assessmentOf s measured).regressed = [] ↔
      ¬ ∃ m ∈ measured, m.2.classification = .regression := by
    rw [assessmentOf, Assessment.regressed, List.map_eq_nil_iff, List.filter_eq_nil_iff,
      List.forall_mem_map]
    simp [Comparison.isRegression]
  rw [Assessment.exitCode]
  by_cases h : ∃ m ∈ measured, m.2.classification = .regression
  · rw [if_pos h, if_neg]
    exact fun hempty => hregressed.mp (List.isEmpty_iff.mp hempty) h
  · rw [if_neg h, if_pos]
    exact List.isEmpty_iff.mpr (hregressed.mpr h)

structure Stops (s : CheckSettings) (measured : List (Summary × Comparison))
    (benchmark : String) (cause : Fault) (result : Except Failure Nat) (asked : List Request) :
    Prop where
  failed : result = .error (.benchmark benchmark cause)
  listed : ∃ later, s.benchmarks = measured.map (·.1.name) ++ benchmark :: later
  begun : asked.filterMap begun = measured.map (·.1.name) ++ [benchmark]
  unwritten : ∀ r ∈ asked, writes r = false

structure Completes (s : CheckSettings) (started : Instant)
    (measured : List (Summary × Comparison)) (result : Except Failure Nat)
    (asked : List Request) : Prop where
  begun : asked.filterMap begun = s.benchmarks
  listed : measured.map (·.1.name) = s.benchmarks
  written : ∃ text, asked.filter writes =
      [.makeDirectory s.results,
        .write (Path.joined s.results (resultsOf started measured).fileName) text] ∧
    Recorded.Listed text (measured.map (·.1))
  status : result =
    .ok (if ∃ m ∈ measured, m.2.classification = .regression then 1 else 0)

theorem begun_of_quiet {asked : List Request} (h : ∀ r ∈ asked, Quiet r) :
    asked.filterMap begun = [] := by
  refine List.filterMap_eq_nil_iff.mpr fun r hr => ?_
  have hmeasures := (h r hr).1
  cases r with
  | say notice => cases notice <;> first | rfl | exact nomatch hmeasures
  | _ => rfl

section
variable {σ : Type} {machine : Machine σ} {ready : Ready s content} {begins ends : σ}
  {measured : List (Summary × Comparison)} {opening measuring : List Request}

theorem Ready.benchmarks_eq (ready : Ready s content) :
    (s.benchmarks.zip ready.entries).map (·.1) = s.benchmarks :=
  List.map_fst_zip (mapM_eq_ok_iff.mp ready.found).length_eq.le

theorem stops_of_course {benchmark : String} {cause : Fault} (hquiet : ∀ r ∈ opening, Quiet r)
    (hcourse : Course s ready.plan machine (s.benchmarks.zip ready.entries) begins measured
      (some (benchmark, cause)) measuring ends) :
    Stops s measured benchmark cause (.error (.benchmark benchmark cause))
      (opening ++ measuring) := by
  obtain ⟨later, hnames, _⟩ := hcourse.names
  refine ⟨rfl, ⟨later, ?_⟩, ?_, fun r hr => ?_⟩
  · rw [← ready.benchmarks_eq, hnames]
    simp
  · rw [List.filterMap_append, begun_of_quiet hquiet, hcourse.begun_eq]
    rfl
  · rcases List.mem_append.mp hr with hr | hr
    · exact (hquiet r hr).2
    · exact hcourse.quiet r hr

theorem completes_of_course {started : Instant} (hquiet : ∀ r ∈ opening, Quiet r)
    (hcourse : Course s ready.plan machine (s.benchmarks.zip ready.entries) begins measured none
      measuring ends) :
    Completes s started measured (.ok (assessmentOf s measured).exitCode)
      (opening ++ (measuring ++ (saving s (resultsOf started measured) ++
        telling s (resultsOf started measured) (assessmentOf s measured)))) := by
  obtain ⟨later, hnames, hall⟩ := hcourse.names
  have hmeasured : measured.map (·.1.name) = s.benchmarks := by
    rw [← ready.benchmarks_eq, hnames, hall rfl]
    simp
  refine ⟨?_, hmeasured, ⟨_, ?_, Recorded.json_listed started (measured.map (·.1))⟩, ?_⟩
  · rw [List.filterMap_append, List.filterMap_append, begun_of_quiet hquiet, hcourse.begun_eq,
      hmeasured]
    simp [begun, saving, telling]
  · have hopening : opening.filter writes = [] :=
      List.filter_eq_nil_iff.mpr fun r hr => by simp [(hquiet r hr).2]
    have hmeasuring : measuring.filter writes = [] :=
      List.filter_eq_nil_iff.mpr fun r hr => by simp [hcourse.quiet r hr]
    rw [List.filter_append, List.filter_append, hopening, hmeasuring]
    rfl
  · rw [exitCode_assessed]

end

section
variable {σ : Type} {machine : Machine σ}

def Ended (s : CheckSettings) (machine : Machine σ) (started : Instant)
    (measured : List (Summary × Comparison)) (opening measuring : List Request)
    (result : Except Failure Nat) (asked : List Request) : Option (String × Fault) → Prop
  | some (benchmark, cause) =>
    asked = opening ++ measuring ∧ Stops s measured benchmark cause result asked
  | none => Saves machine →
    asked = opening ++ (measuring ++ (saving s (resultsOf started measured) ++
      telling s (resultsOf started measured) (assessmentOf s measured))) ∧
    Completes s started measured result asked

/-- A check that has started measures its benchmarks in order, until a measurement fails or all
are measured. -/
theorem check_of_start {ready : Ready s content} {started : Instant} {state begins : σ}
    {opening : List Request} (hstart : Takes machine s.start state
      (.ok ⟨ready.plan, started, ready.entries⟩) opening begins) :
    ∃ result asked last measured stop measuring ends,
      Takes machine s.check state result asked last ∧
      Course s ready.plan machine (s.benchmarks.zip ready.entries) begins measured stop measuring
        ends ∧
      Ended s machine started measured opening measuring result asked stop := by
  have hquiet : ∀ r ∈ opening, Quiet r :=
    hstart.requests ▸ (start_quiet s).requests machine state
  have hwithin := takes_within machine .fault hstart
  obtain ⟨measured, stop, measuring, ends, hcourse, hmeasure⟩ :=
    measureAll_course s ready.plan machine (s.benchmarks.zip ready.entries) begins
  cases stop with
  | some stopped =>
    exact ⟨_, _, _, measured, _, measuring, ends, hwithin.bind_ok hmeasure.bind_error, hcourse,
      rfl, stops_of_course hquiet hcourse⟩
  | none =>
    have hfinish := takes_run machine (Job.within .fault (s.finish started measured)) ends
    refine ⟨_, _, _, measured, _, measuring, ends, hwithin.bind_ok (hmeasure.bind_ok hfinish),
      hcourse, fun hsaves => ?_⟩
    rcases finish_cases s machine started measured ends with ⟨last, hlast⟩ | ⟨hnever, _⟩
    · have hwhole := takes_within machine .fault hlast
      rw [hwhole.run, hwhole.requests]
      exact ⟨rfl, completes_of_course hquiet hcourse⟩
    · exact absurd hsaves hnever

end

/-- A check that meets an obstacle fails and leaves everything alone. Any other check measures
its benchmarks in order, until a measurement fails or all are measured. Then one file is written,
and its text spells a document that lists the benchmarks in order, with their figures. -/
theorem check_gate {σ : Type} (c : Config) (options : CommandLine.CheckOptions)
    (machine : Machine σ) (state : σ) :
    ∃ result asked last,
      Takes machine ((CommandLine.Command.check options).execute c) state result asked last ∧
      (Obstacle (.of c options) (baselineContent (.of c options) machine state) →
        (∃ failure, result = .error failure) ∧ ∀ r ∈ asked, Quiet r) ∧
      (¬ Obstacle (.of c options) (baselineContent (.of c options) machine state) →
        ∃ (ready : Ready (.of c options) (baselineContent (.of c options) machine state))
          (started : Instant) (opening : List Request) (begins : σ)
          (measured : List (Summary × Comparison)) (stop : Option (String × Fault))
          (measuring : List Request) (ends : σ),
          Takes machine (CheckSettings.of c options).start state
            (.ok ⟨ready.plan, started, ready.entries⟩) opening begins ∧
          Course (.of c options) ready.plan machine
            ((CheckSettings.of c options).benchmarks.zip ready.entries) begins measured stop
            measuring ends ∧
          Ended (.of c options) machine started measured opening measuring result asked stop) := by
  rw [CommandLine.Command.execute]
  generalize CheckSettings.of c options = s
  rcases start_cases s machine state with
    ⟨ready, started, opening, begins, hstart⟩ | ⟨hobstacle, cause, asked, next, hstart⟩
  · obtain ⟨result, asked, last, measured, stop, measuring, ends, htakes, hcourse, hended⟩ :=
      check_of_start hstart
    exact ⟨result, asked, last, htakes, fun h => absurd h ready.no_obstacle,
      fun _ => ⟨ready, started, opening, begins, measured, stop, measuring, ends, hstart, hcourse,
        hended⟩⟩
  · refine ⟨_, asked, next, (takes_within machine .fault hstart).bind_error, fun _ => ?_,
      fun h => absurd hobstacle h⟩
    exact ⟨⟨_, rfl⟩, hstart.requests ▸ (start_quiet s).requests machine state⟩

def exampleBaseline : String :=
  "\x7b\"version\":\"1\",\"date\":\"d\",\"hardware\":\x7b\"cpu\":\"x\"\x7d," ++
    "\"benchmarks\":\x7b\"a\":\x7b\"mean_ms\":10.0,\"stddev_ms\":1.0\x7d\x7d\x7d"

def exampleMachine : Machine Unit where
  answer
    | .read _, state => (.ok exampleBaseline, state)
    | .present _, state => (false, state)
    | .makeDirectory _, state => (.ok (), state)
    | .write _ _, state => (.ok (), state)
    | .execute _ _, state => (.ok ⟨.status 0, "", 20.0⟩, state)
    | .now, state => (⟨0, 0⟩, state)
    | .word, state => ((0 : UInt64), state)
    | .say _, state => ((), state)

def exampleOptions : CommandLine.CheckOptions where
  baseline := none
  iterations := some 1
  threshold := none
  sqlDir := some "workloads"
  resultsDir := none
  benchmarks := ["a"]

/-- The check measures what is listed, finds the regression and writes a file that lists it. -/
theorem check_gate_regression :
    ∃ asked last path text summaries,
      Takes exampleMachine ((CommandLine.Command.check exampleOptions).execute {}) () (.ok 1)
        asked last ∧
      asked.filterMap begun = ["a"] ∧
      asked.filter writes = [.makeDirectory ".", .write path text] ∧
      Recorded.Listed text summaries ∧ summaries.map (·.name) = ["a"] := by
  obtain ⟨result, asked, last, htakes, hobstacle, hotherwise⟩ :=
    check_gate {} exampleOptions exampleMachine ()
  have hstatus : (((CommandLine.Command.check exampleOptions).execute {}).run.run
      exampleMachine ()).1.toOption = some 1 := by
    decide +kernel
  rw [htakes.run] at hstatus
  cases result with
  | error failure => cases hstatus
  | ok code =>
    obtain rfl : code = 1 := Option.some.inj hstatus
    have hclear : ¬ Obstacle (.of {} exampleOptions)
        (baselineContent (.of {} exampleOptions) exampleMachine ()) := by
      intro h
      obtain ⟨failure, hfailure⟩ := (hobstacle h).1
      cases hfailure
    obtain ⟨ready, started, opening, begins, measured, stop, measuring, ends, _, _, hended⟩ :=
      hotherwise hclear
    cases stop with
    | some stopped => cases hended.2.failed
    | none =>
      have hcompletes := (hended fun _ _ _ => ⟨rfl, rfl⟩).2
      obtain ⟨text, hwritten, hlisted⟩ := hcompletes.written
      refine ⟨asked, last, _, text, _, htakes, hcompletes.begun, hwritten, hlisted, ?_⟩
      rw [List.map_map]
      exact hcompletes.listed

end PerfGate.Gate
