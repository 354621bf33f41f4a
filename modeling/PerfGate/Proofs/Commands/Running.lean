import PerfGate.Commands.Program
import PerfGate.Proofs.Commands.Measuring
import PerfGate.Proofs.Commands.Saving
import PerfGate.Proofs.Measurement.Bounds
import PerfGate.Proofs.Measurement.Trials

/-!
# A run passes over what fails

Each workload is measured in its turn, from the state that the one before it left. It has a
summary exactly if all of its executions succeed; otherwise it has the fault of the first that
did not, and the next workload is measured all the same. The report holds the summaries in
order, and is written if there are any.
-/

set_option autoImplicit false

namespace PerfGate.Running

open CommandLine (Workload)
open Dialogue Finishing Measuring Report Saving Workloads

/-! ## Trials on a machine -/

section
variable {α β σ : Type} (machine : Machine σ)

def played (task : Job α) : ExceptT Fault (StateM σ) α :=
  ExceptT.mk fun s => task.run.run machine s

theorem played_pure (a : α) : played machine (pure a) = pure a := rfl

theorem played_bind (task : Job α) (f : α → Job β) :
    played machine (task >>= f) = played machine task >>= fun a => played machine (f a) := by
  funext s
  have hbind : played machine (task >>= f) s =
      (ExceptT.bindCont f (task.run.run machine s).1).run machine (task.run.run machine s).2 :=
    run_bind machine task.run (ExceptT.bindCont f) s
  rw [hbind]
  rcases h : task.run.run machine s with ⟨result, t⟩
  have hplayed : Trials.perform (played machine task) s = (result, t) := h
  cases result with
  | ok a => exact (Trials.perform_bind_ok (fun a => played machine (f a)) hplayed).symm
  | error cause => exact (Trials.perform_bind_error _ hplayed).symm

variable (runner : Runner Dialogue) (workload : String)

theorem played_warm (n : Nat) :
    played machine (TrialPlan.warm runner workload n) =
      TrialPlan.warm (fun file => played machine (runner file)) workload n := by
  induction n with
  | zero => rfl
  | succ n ih => rw [TrialPlan.warm, TrialPlan.warm, played_bind, ih]

theorem played_timed (implementation : String) (iteration n : Nat) :
    played machine (TrialPlan.timed runner workload implementation iteration n) =
      TrialPlan.timed (fun file => played machine (runner file)) workload implementation iteration
        n := by
  induction n generalizing iteration with
  | zero => rfl
  | succ n ih =>
    simp only [TrialPlan.timed, played_bind, played_pure, ih]

theorem played_run (plan : TrialPlan) (implementation : String) :
    played machine (plan.run runner workload implementation) =
      plan.run (fun file => played machine (runner file)) workload implementation := by
  rw [TrialPlan.run, TrialPlan.run, played_bind, played_warm, played_timed]

end

/-! ## One workload -/

/-- The durations that a runner gives are numbers, as the ticks of a clock are. -/
def Clocked {σ : Type} (machine : Machine σ) (runner : Runner Dialogue) : Prop :=
  ∀ workload state duration,
    ((runner workload).run.run machine state).1 = .ok duration → duration.isNaN = false

structure Labelled (plan : TrialPlan) (w : Workload) (summary : Summary) : Prop where
  name : summary.name = w.path
  implementation : summary.implementation = w.implementation
  n : summary.n = plan.iterations

section
variable {σ : Type} (plan : TrialPlan) (runner : Runner Dialogue) (machine : Machine σ)

/-- The durations that count, which are those after the warmup. -/
def counted (durations : Nat → Float) : List Float :=
  (List.range plan.iterations).map fun i => durations (plan.warmup + i)

def execution (w : Workload) (state : σ) (k : Nat) : Except Fault Float :=
  Trials.answerAt (fun file => played machine (runner file)) w.path state k

inductive Outcome (w : Workload) (state : σ) : Except Fault Summary → Prop where
  | completed {durations : Nat → Float} {summary : Summary}
      (succeeded : ∀ k < plan.warmup + plan.iterations,
        execution runner machine w state k = .ok (durations k))
      (summarized : Summary.ofDurations w.path w.implementation (counted plan durations) =
        .ok summary)
      (labelled : Labelled plan w summary) : Outcome w state (.ok summary)
  | failed {k : Nat} {cause : Fault} (hk : k < plan.warmup + plan.iterations)
      (before : ∀ j < k, ∃ duration, execution runner machine w state j = .ok duration)
      (failure : execution runner machine w state k = .error cause) :
      Outcome w state (.error cause)

variable {plan runner machine}

theorem Outcome.completed_iff {w : Workload} {state : σ} {result : Except Fault Summary}
    (h : Outcome plan runner machine w state result) :
    (∃ summary, result = .ok summary) ↔ ∀ k < plan.warmup + plan.iterations,
      ∃ duration, execution runner machine w state k = .ok duration := by
  cases h with
  | completed succeeded => exact ⟨fun _ k hk => ⟨_, succeeded k hk⟩, fun _ => ⟨_, rfl⟩⟩
  | failed hk before failure =>
    constructor
    · rintro ⟨summary, hsummary⟩
      exact nomatch hsummary
    · intro hall
      obtain ⟨duration, hduration⟩ := hall _ hk
      exact nomatch failure.symm.trans hduration

theorem Outcome.labelled {w : Workload} {state : σ} {summary : Summary}
    (h : Outcome plan runner machine w state (.ok summary)) : Labelled plan w summary := by
  cases h with
  | completed _ _ labelled => exact labelled

/-- Samples of one workload are summarized by their durations. -/
theorem ofSamples_eq {n : Nat} (hpos : 0 < n) (workload name implementation : String)
    (durations : Nat → Float) :
    Summary.ofSamples workload ((List.range n).map fun i =>
      ⟨name, implementation, durations i, i⟩) =
      Summary.ofDurations name implementation ((List.range n).map durations) := by
  obtain ⟨n, rfl⟩ := Nat.exists_eq_add_of_lt hpos
  rw [List.range_succ_eq_map]
  simp [Summary.ofSamples, Function.comp_def]

theorem run_settles (w : Workload) (state : σ) :
    ∃ samples calls asked last,
      Trials.Settles (fun file => played machine (runner file)) ⟨plan, w.path, w.implementation⟩
        state samples calls last ∧
      Takes machine (plan.run runner w.path w.implementation) state samples asked last := by
  obtain ⟨samples, calls, last, hsettles⟩ := Trials.settles_exists
    (fun file => played machine (runner file)) ⟨plan, w.path, w.implementation⟩ state
  have hrun : (plan.run runner w.path w.implementation).run.run machine state =
      (samples, last) := by
    rw [← Trials.run_of_settles hsettles, ← played_run]
    rfl
  exact ⟨samples, calls, _, last, hsettles, hrun, rfl⟩

/-- Executions that all succeed have a summary. -/
theorem counted_summarized (hclock : Clocked machine runner) {w : Workload} {state : σ}
    {durations : Nat → Float} (succeeded : ∀ k < plan.warmup + plan.iterations,
      execution runner machine w state k = .ok (durations k)) :
    ∃ summary, Summary.ofDurations w.path w.implementation (counted plan durations) =
      .ok summary ∧ Labelled plan w summary := by
  have hne : counted plan durations ≠ [] := by
    simpa [counted] using plan.iterations_pos.ne'
  have hnumbers : Statistics.Numbers (counted plan durations) := by
    intro x hx
    obtain ⟨i, hi, rfl⟩ := List.mem_map.mp hx
    have hk : plan.warmup + i < plan.warmup + plan.iterations :=
      Nat.add_lt_add_left (List.mem_range.mp hi) _
    exact hclock _ _ _ (succeeded _ hk)
  obtain ⟨summary, hsummary, _⟩ :=
    Summary.ofDurations_reduces w.path w.implementation hne hnumbers
  obtain ⟨hname, himplementation, hn⟩ := ofDurations_labels hsummary
  rw [counted, List.length_map, List.length_range] at hn
  exact ⟨summary, hsummary, hname, himplementation, hn⟩

theorem summarize_outcome (hclock : Clocked machine runner) (w : Workload) (state : σ) :
    ∃ result asked last, Outcome plan runner machine w state result ∧
      Takes machine (summarize plan runner w) state result asked last := by
  obtain ⟨samples, calls, asked, last, hsettles, hrun⟩ := run_settles w state
  cases hsettles with
  | failed k cause hk before failure =>
    exact ⟨_, _, _, .failed hk before failure, hrun.bind_error⟩
  | completed durations succeeded =>
    obtain ⟨summary, hsummary, hlabelled⟩ := counted_summarized hclock succeeded
    have hsamples := ofSamples_eq plan.iterations_pos w.path w.path w.implementation
      fun i => durations (plan.warmup + i)
    exact ⟨_, _, _, .completed succeeded hsummary hlabelled,
      hrun.bind_ok (takes_except machine (hsamples.trans hsummary) _)⟩

end

/-! ## Workload after workload -/

def verdict (w : Workload) : Except Fault Summary → Notice
  | .ok summary => .measured summary.mean summary.median
  | .error cause => .workloadFailed w.path cause

structure Trial (σ : Type) where
  workload : Workload
  start : σ
  result : Except Fault Summary

def completed {σ : Type} (trials : List (Trial σ)) : List Summary :=
  trials.filterMap (·.result.toOption)

section
variable {σ : Type} (plan : TrialPlan) (runner : Runner Dialogue) (machine : Machine σ)

def afterSaying (notice : Notice) (state : σ) : σ :=
  (machine.answer (.say notice) state).2

/-- Workloads measured one after another, whatever becomes of each: their trials, what was asked,
and the last state. -/
inductive Course : List Workload → σ → List (Trial σ) → List Request → σ → Prop where
  | finished (state : σ) : Course [] state [] [] state
  | measured {w : Workload} {rest : List Workload} {state next last : σ}
      {result : Except Fault Summary} {trials : List (Trial σ)} {asked later : List Request}
      (trial : Takes machine (summarize plan runner w)
        (afterSaying machine (.workload w.path w.implementation) state) result asked next)
      (outcome : Outcome plan runner machine w
        (afterSaying machine (.workload w.path w.implementation) state) result)
      (after : Course rest (afterSaying machine (verdict w result) next) trials later last) :
      Course (w :: rest) state
        (⟨w, afterSaying machine (.workload w.path w.implementation) state, result⟩ :: trials)
        (.say (.workload w.path w.implementation) ::
          (asked ++ .say (verdict w result) :: later)) last

theorem measure_eq (w : Workload) :
    Workloads.measure plan runner w = (do
      say (.workload w.path w.implementation)
      let result ← (summarize plan runner w).run
      say (verdict w result)
      return result) := by
  rw [Workloads.measure]
  congr 1
  funext _
  congr 1
  funext result
  cases result <;> rfl

variable {plan runner machine}

theorem measure_plays {w : Workload} {state next : σ} {result : Except Fault Summary}
    {asked : List Request}
    (trial : Takes machine (summarize plan runner w)
      (afterSaying machine (.workload w.path w.implementation) state) result asked next) :
    Plays machine (Workloads.measure plan runner w) state result
      (.say (.workload w.path w.implementation) :: (asked ++ [.say (verdict w result)]))
      (afterSaying machine (verdict w result) next) := by
  rw [measure_eq]
  have hbegun := plays_request machine (.say (.workload w.path w.implementation)) state
  have htrial : Plays machine (summarize plan runner w).run _ result asked next :=
    ⟨trial.run, trial.requests⟩
  have htold := plays_request machine (.say (verdict w result)) next
  exact hbegun.bind (htrial.bind (htold.bind (plays_pure machine result _)))

theorem completed_cons (trial : Trial σ) (trials : List (Trial σ)) :
    completed (trial :: trials) = trial.result.toOption.toList ++ completed trials := by
  rw [completed, List.filterMap_cons]
  cases trial.result.toOption <;> rfl

variable (plan) in
/-- However the workloads end, all of them are measured, each from where the one before it ended. -/
theorem measureAll_course (hclock : Clocked machine runner) (workloads : List Workload)
    (state : σ) :
    ∃ trials asked last, Course plan runner machine workloads state trials asked last ∧
      Plays machine (measureAll plan runner workloads) state (completed trials) asked last := by
  -- The rest is measured from the state in which the verdict on the first has been told.
  induction workloads generalizing state with
  | nil => exact ⟨_, _, _, .finished state, plays_pure machine _ state⟩
  | cons w rest ih =>
    obtain ⟨result, asked, next, houtcome, htrial⟩ := summarize_outcome hclock w
      (afterSaying machine (.workload w.path w.implementation) state)
    obtain ⟨trials, later, last, hcourse, hrest⟩ := ih (afterSaying machine (verdict w result) next)
    refine ⟨_, _, _, .measured htrial houtcome hcourse, ?_⟩
    have hothers := hrest.bind (f := fun others => pure (result.toOption.toList ++ others))
      (plays_pure machine _ last)
    have hall := (measure_plays htrial).bind (f := fun result => do
      let others ← measureAll plan runner rest
      pure (result.toOption.toList ++ others)) hothers
    rw [completed_cons]
    exact ⟨hall.run, hall.requests.trans (by simp)⟩

variable {workloads : List Workload} {state last : σ} {trials : List (Trial σ)}
  {asked : List Request}

theorem Course.workloads_eq (h : Course plan runner machine workloads state trials asked last) :
    trials.map (·.workload) = workloads := by
  induction h with
  | finished state => rfl
  | measured trial outcome after ih => rw [List.map_cons, ih]

theorem Course.outcome (h : Course plan runner machine workloads state trials asked last) :
    ∀ trial ∈ trials, Outcome plan runner machine trial.workload trial.start trial.result := by
  induction h with
  | finished state => simp
  | measured trial outcome after ih => exact List.forall_mem_cons.mpr ⟨outcome, ih⟩

/-- Measuring changes no file unless the runner does. -/
theorem Course.quiet (hrunner : ∀ w, Obeys (fun r => writes r = false) (fun _ => True) (runner w))
    (h : Course plan runner machine workloads state trials asked last) :
    ∀ r ∈ asked, writes r = false := by
  induction h with
  | finished state => simp
  | @measured w rest state next last result trials asked later trial outcome after ih =>
    have hsummarize : Obeys (fun r => writes r = false) (fun _ => True)
        (summarize plan runner w) :=
      Obeys.bind (run_obeys hrunner plan _ _) fun _ _ => obeys_of_except fun _ _ => trivial
    have htrial : ∀ r ∈ asked, writes r = false :=
      trial.requests ▸ hsummarize.requests machine _
    intro r hr
    rcases List.mem_cons.mp hr with rfl | hr
    · rfl
    rcases List.mem_append.mp hr with hr | hr
    · exact htrial r hr
    rcases List.mem_cons.mp hr with rfl | hr
    · rfl
    · exact ih r hr

end

/-! ## The report of a run -/

section
variable (plan : TrialPlan) {σ : Type}

def block (w : Workload) (s : Summary) : String :=
  "### " ++ w.path ++ " (" ++ w.implementation ++ ")\n\n" ++
    "- **Mean**: " ++ Decimal.fixed 2 s.mean ++ "ms\n" ++
    "- **Median**: " ++ Decimal.fixed 2 s.median ++ "ms\n" ++
    "- **Std Dev**: " ++ Decimal.fixed 2 s.deviation ++ "ms\n" ++
    "- **Min**: " ++ Decimal.fixed 2 s.least ++ "ms\n" ++
    "- **Max**: " ++ Decimal.fixed 2 s.greatest ++ "ms\n" ++
    "- **Sample Size**: " ++ toString plan.iterations ++ "\n\n"

/-- A workload that has failed leaves nothing in the report. -/
def block? (trial : Trial σ) : Option String :=
  trial.result.toOption.map (block plan trial.workload)

def reportText (trials : List (Trial σ)) (generated : Instant) : String :=
  "# pg_tviews Performance Validation Report\n\n" ++
    "Generated: " ++ generated.preciseText ++ "\n\n" ++
    "## Benchmark Results\n\n" ++
    String.join (trials.filterMap (block? plan))

def reporting (output : String) (trials : List (Trial σ)) (generated : Instant) : List Request :=
  .now :: (stored output (reportText plan trials generated) ++ [.say (.documentSaved output)])

theorem textOfLines_append (before after : List String) :
    textOfLines (before ++ after) = textOfLines before ++ textOfLines after := by
  rw [textOfLines, List.map_append, String.join_append, textOfLines, textOfLines]

theorem textOfLines_header (generated : Instant) :
    textOfLines (validationHeader generated) =
      "# pg_tviews Performance Validation Report\n\n" ++
        "Generated: " ++ generated.preciseText ++ "\n\n" ++
        "## Benchmark Results\n\n" := by
  rw [← String.toList_inj]
  simp [textOfLines, validationHeader, String.toList_append]

variable {plan}

theorem textOfLines_summaryBlock {w : Workload} {s : Summary} (h : Labelled plan w s) :
    textOfLines (summaryBlock s) = block plan w s := by
  unfold block
  rw [← String.toList_inj, ← h.name, ← h.implementation, ← h.n]
  simp [textOfLines, summaryBlock, figure, String.toList_append]

theorem flatMap_summaryBlock {trials : List (Trial σ)} (h : ∀ trial ∈ trials, ∀ summary,
    trial.result = .ok summary → Labelled plan trial.workload summary) :
    textOfLines ((completed trials).flatMap summaryBlock) =
      String.join (trials.filterMap (block? plan)) := by
  induction trials with
  | nil => rfl
  | cons trial rest ih =>
    obtain ⟨htrial, hrest⟩ := List.forall_mem_cons.mp h
    rw [completed_cons, List.flatMap_append, textOfLines_append, ih hrest, List.filterMap_cons]
    cases hresult : trial.result with
    | error cause => simp [block?, hresult, Except.toOption, textOfLines]
    | ok summary =>
      simp [block?, hresult, Except.toOption, textOfLines_summaryBlock (htrial summary hresult),
        String.join_cons]

/-- The report of a run is its header and one block for each trial that completed, in order. -/
theorem validationReport_eq {trials : List (Trial σ)} (h : ∀ trial ∈ trials, ∀ summary,
    trial.result = .ok summary → Labelled plan trial.workload summary) (generated : Instant) :
    validationReport (completed trials) generated = reportText plan trials generated := by
  unfold reportText
  rw [validationReport, textOfLines_append, textOfLines_header, flatMap_summaryBlock h]

end

def timeAt {σ : Type} (machine : Machine σ) (state : σ) : Instant :=
  (machine.answer .now state).1

theorem report_takes {σ : Type} {machine : Machine σ} (hsaves : Saves machine) (output : String)
    {summaries : List Summary} (hne : summaries ≠ []) (state : σ) :
    ∃ last, Takes machine (report output summaries) state (.ok 0)
      (.now :: (stored output (validationReport summaries (timeAt machine state)) ++
        [.say (.documentSaved output)])) last := by
  have hnow := takes_request (ε := Fault) machine .now state
  obtain ⟨saved, hsave⟩ := save_takes hsaves output
    (validationReport summaries (timeAt machine state)) (machine.answer .now state).2
  obtain ⟨last, hsaid⟩ := say_takes (ε := Fault) machine (.documentSaved output) saved
  have hjob : Takes machine (do
      let generated ← Dialogue.request .now
      Document.save output (validationReport summaries generated)
      say (.documentSaved output)
      return 0 : Job Nat) state (.ok 0) _ last :=
    hnow.bind_ok (hsave.bind_ok (hsaid.bind_ok (takes_pure machine 0 last)))
  rw [report, if_neg (by simpa using hne)]
  exact ⟨last, (takes_within machine .fault hjob).asking (by simp)⟩

/-- The command is a run with the plan and the client of its settings. -/
theorem execute_takes {σ : Type} {machine : Machine σ} {s : RunSettings} {plan : TrialPlan}
    (hplan : TrialPlan.of? s.iterations s.warmup = .ok plan) {state last : σ}
    {result : Except Failure Nat} {asked : List Request}
    (h : Takes machine (Workloads.run plan s.client.runner s.workloads s.output) state result
      asked last) : Takes machine s.execute state result asked last :=
  (takes_within machine .fault (takes_except machine hplan state)).bind_ok h

theorem completed_eq_nil_iff {σ : Type} {trials : List (Trial σ)} :
    completed trials = [] ↔ ∀ trial ∈ trials, ∃ cause, trial.result = .error cause := by
  rw [completed, List.filterMap_eq_nil_iff]
  refine forall₂_congr fun trial _ => ?_
  cases trial.result <;> simp [Except.toOption]

section
variable {σ : Type} {plan : TrialPlan} {runner : Runner Dialogue} {machine : Machine σ}

inductive Ends (plan : TrialPlan) (machine : Machine σ) (output : String)
    (trials : List (Trial σ)) (measuring : List Request) (ends : σ) :
    Except Failure Nat → List Request → Prop where
  | reported (some : ∃ trial ∈ trials, ∃ summary, trial.result = .ok summary) :
      Ends plan machine output trials measuring ends (.ok 0)
        (measuring ++ reporting plan output trials (timeAt machine ends))
  | nothing (none : ∀ trial ∈ trials, ∃ cause, trial.result = .error cause) :
      Ends plan machine output trials measuring ends (.error .nothingCompleted) measuring

theorem mem_reporting {output : String} {trials : List (Trial σ)} {generated : Instant} :
    Request.write output (reportText plan trials generated) ∈
      reporting plan output trials generated := by
  simp [reporting, stored]

variable {output : String} {trials : List (Trial σ)} {measuring asked : List Request} {ends : σ}
  {result : Except Failure Nat}

/-- A file is written exactly if there is something to report. -/
theorem Ends.writes_iff (h : Ends plan machine output trials measuring ends result asked)
    (hquiet : ∀ r ∈ measuring, writes r = false) :
    (∃ path text, Request.write path text ∈ asked) ↔
      ∃ trial ∈ trials, ∃ summary, trial.result = .ok summary := by
  cases h with
  | reported hsome =>
    exact ⟨fun _ => hsome, fun _ => ⟨_, _, List.mem_append_right _ mem_reporting⟩⟩
  | nothing hnone =>
    constructor
    · rintro ⟨path, text, hwrite⟩
      exact nomatch hquiet _ hwrite
    · rintro ⟨trial, htrial, summary, hsummary⟩
      obtain ⟨cause, hcause⟩ := hnone trial htrial
      exact nomatch hsummary.symm.trans hcause

/-- The command reports if a trial has completed, and fails if none has. -/
theorem report_ends (hsaves : Saves machine) (output : String)
    (hlabelled : ∀ trial ∈ trials, ∀ summary, trial.result = .ok summary →
      Labelled plan trial.workload summary) (ends : σ) :
    ∃ result asked last, Takes machine (report output (completed trials)) ends result asked last ∧
      Ends plan machine output trials measuring ends result (measuring ++ asked) := by
  by_cases hnone : completed trials = []
  · have hreport : Takes machine (report output (completed trials)) ends
        (.error .nothingCompleted) [] ends := by
      rw [report, hnone]
      exact ⟨rfl, rfl⟩
    refine ⟨_, _, _, hreport, (List.append_nil measuring).symm ▸ .nothing ?_⟩
    exact completed_eq_nil_iff.mp hnone
  · obtain ⟨last, hreport⟩ := report_takes hsaves output hnone ends
    rw [validationReport_eq hlabelled] at hreport
    refine ⟨_, _, last, hreport, .reported ?_⟩
    by_contra hfailed
    exact hnone (completed_eq_nil_iff.mpr fun trial htrial => by
      cases hresult : trial.result with
      | error cause => exact ⟨cause, rfl⟩
      | ok summary => exact absurd ⟨trial, htrial, summary, hresult⟩ hfailed)

end

/-- A run isolates the workloads that fail. All are executed, in order; the summaries are those
of the workloads all of whose executions succeed; and the report is written if there is one of
them and holds a block for each, under its path and implementation. -/
theorem run_isolates {σ : Type} (plan : TrialPlan) (runner : Runner Dialogue)
    (workloads : List Workload) (output : String) (machine : Machine σ) (state : σ)
    (hclock : Clocked machine runner) (hsaves : Saves machine) :
    ∃ trials measuring ends result asked last,
      Course plan runner machine workloads state trials measuring ends ∧
      trials.map (·.workload) = workloads ∧
      (∀ trial ∈ trials,
        ((∃ summary, trial.result = .ok summary) ↔ ∀ k < plan.warmup + plan.iterations,
          ∃ duration, execution runner machine trial.workload trial.start k = .ok duration) ∧
        ∀ summary, trial.result = .ok summary → Labelled plan trial.workload summary) ∧
      Takes machine (Workloads.run plan runner workloads output) state result asked last ∧
      Ends plan machine output trials measuring ends result asked ∧
      ((∀ w, Obeys (fun r => writes r = false) (fun _ => True) (runner w)) →
        (∀ r ∈ measuring, writes r = false) ∧
        ((∃ path text, Request.write path text ∈ asked) ↔
          ∃ trial ∈ trials, ∃ summary, trial.result = .ok summary)) := by
  obtain ⟨trials, measuring, ends, hcourse, hplays⟩ :=
    measureAll_course plan hclock workloads state
  have houtcome := hcourse.outcome
  have hlabelled : ∀ trial ∈ trials, ∀ summary, trial.result = .ok summary →
      Labelled plan trial.workload summary := fun trial htrial summary hsummary =>
    (hsummary ▸ houtcome trial htrial).labelled
  obtain ⟨result, asked, last, hreport, hends⟩ := report_ends hsaves output hlabelled ends
  refine ⟨trials, measuring, ends, result, measuring ++ asked, last, hcourse,
    hcourse.workloads_eq, fun trial htrial => ⟨(houtcome trial htrial).completed_iff,
      hlabelled trial htrial⟩, ?_, hends, fun hrunner => ?_⟩
  · exact (takes_lift (ε := Failure) hplays).bind_ok hreport
  · exact ⟨hcourse.quiet hrunner, hends.writes_iff (hcourse.quiet hrunner)⟩

def exampleMachine : Machine Nat :=
  obliging "" fun count => (⟨.status (1 - count), "", 5.0⟩, count + 1)

def examplePlan : TrialPlan := ⟨1, 0, Nat.one_pos⟩

def exampleClient : Client := ({} : Config).clientOf

def exampleWorkload : Workload := ⟨"a.sql", "x"⟩

def exampleOptions : CommandLine.RunOptions where
  iterations := some 1
  warmup := some 0
  output := "report.md"
  workloads := [exampleWorkload, exampleWorkload]

theorem exampleClient_clocked : Clocked exampleMachine exampleClient.runner := by
  intro workload count duration h
  change exampleClient.outcome workload (.ok ⟨.status (1 - count), "", 5.0⟩) = .ok duration at h
  rw [Client.outcome] at h
  split at h
  · obtain rfl := Except.ok.inj h
    change (5.0 : Float).isNaN = false
    decide
  · exact nomatch h

def exampleMeasured (count : Nat) : Except Fault Summary × Nat :=
  (summarize examplePlan exampleClient.runner exampleWorkload).run.run exampleMachine count

def exampleBlock : String :=
  "### a.sql (x)\n\n- **Mean**: 5.00ms\n- **Median**: 5.00ms\n- **Std Dev**: 0.00ms\n" ++
    "- **Min**: 5.00ms\n- **Max**: 5.00ms\n- **Sample Size**: 1\n\n"

theorem exampleCourse_results {trials : List (Trial Nat)} {measuring : List Request} {ends : Nat}
    (h : Course examplePlan exampleClient.runner exampleMachine [exampleWorkload, exampleWorkload]
      0 trials measuring ends) :
    trials.map (·.result.toBool) = [false, true] ∧
      trials.filterMap (block? examplePlan) = [exampleBlock] := by
  have hfirst : (exampleMeasured 0).1.toBool = false ∧ (exampleMeasured 0).2 = 1 ∧
      block? examplePlan ⟨exampleWorkload, 0, (exampleMeasured 0).1⟩ = none := by
    decide +kernel
  have hsecond : (exampleMeasured 1).1.toBool = true ∧
      block? examplePlan ⟨exampleWorkload, 1, (exampleMeasured 1).1⟩ = some exampleBlock := by
    decide +kernel
  cases h with
  | measured first _ after =>
    have hrun : exampleMeasured 0 = _ := first.run
    rw [hrun] at hfirst
    obtain ⟨hfailed, rfl, hnone⟩ := hfirst
    cases after with
    | measured second _ after =>
      have hrun : exampleMeasured 1 = _ := second.run
      rw [hrun] at hsecond
      obtain ⟨hcompleted, hblock⟩ := hsecond
      cases after with
      | finished state =>
        refine ⟨congrArg₂ (fun a b => [a, b]) hfailed hcompleted, ?_⟩
        exact (List.filterMap_cons_none hnone).trans (List.filterMap_cons_some hblock)

/-- A workload that is given twice and fails the first time is reported once. -/
theorem run_isolates_first :
    ∃ (trials : List (Trial Nat)) (asked : List Request) (last : Nat),
      trials.map (·.workload) = [exampleWorkload, exampleWorkload] ∧
      trials.map (·.result.toBool) = [false, true] ∧
      Takes exampleMachine ((CommandLine.Command.run exampleOptions).execute {}) 0 (.ok 0) asked
        last ∧
      Request.write "report.md" ("# pg_tviews Performance Validation Report\n\n" ++
        "Generated: 1970-01-01T00:00:00.000000\n\n## Benchmark Results\n\n" ++ exampleBlock) ∈
          asked := by
  obtain ⟨trials, measuring, ends, result, asked, last, hcourse, hworkloads, _, htakes, hends, _⟩ :=
    run_isolates examplePlan exampleClient.runner [exampleWorkload, exampleWorkload] "report.md"
      exampleMachine 0 exampleClient_clocked (obliging_saves _ _)
  obtain ⟨hresults, hblocks⟩ := exampleCourse_results hcourse
  have hcommand := execute_takes (s := .of {} exampleOptions) rfl htakes
  cases hends with
  | reported _ =>
    have htext : reportText examplePlan trials (timeAt exampleMachine ends) =
        "# pg_tviews Performance Validation Report\n\n" ++
          "Generated: 1970-01-01T00:00:00.000000\n\n## Benchmark Results\n\n" ++
          exampleBlock := by
      unfold reportText
      rw [hblocks]
      change _ ++ Instant.preciseText ⟨0, 0⟩ ++ _ ++ _ ++ _ = _
      decide +kernel
    exact ⟨trials, _, last, hworkloads, hresults, hcommand,
      htext ▸ List.mem_append_right _ mem_reporting⟩
  | nothing hnone =>
    have htrue : true ∈ trials.map (·.result.toBool) := by simp [hresults]
    obtain ⟨trial, htrial, htrue⟩ := List.mem_map.mp htrue
    obtain ⟨cause, hcause⟩ := hnone trial htrial
    rw [hcause] at htrue
    exact nomatch htrue

end PerfGate.Running
