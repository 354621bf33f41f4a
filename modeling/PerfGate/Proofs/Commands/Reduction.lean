import PerfGate.Proofs.Commands.Running
import PerfGate.Proofs.Measurement.Simulated

/-!
# Whatever has been measured can be reduced

A reduction fails if there are no durations, or if they have no extremes in order. Neither
happens to what has been measured: a plan has at least one iteration, every execution that
succeeds leaves a sample, and the durations are numbers, on the clock and out of the simulation
alike. So a measurement fails with a fault of an execution or not at all.
-/

set_option autoImplicit false

namespace PerfGate.Reduction

open Dialogue Measuring Running
open Statistics (Numbers)

/-! ## Samples and their summaries -/

structure Measured (name implementation : String) (n : Nat) (samples : List Sample) : Prop where
  pos : 0 < n
  length : samples.length = n
  labels : ∀ x ∈ samples, x.name = name ∧ x.implementation = implementation
  numbers : Numbers (samples.map (·.duration))

structure Carries (name implementation : String) (n : Nat) (summary : Summary) : Prop where
  name : summary.name = name
  implementation : summary.implementation = implementation
  n : summary.n = n

structure Reducible (name implementation : String) (n : Nat) (samples : List Sample) : Prop where
  ofSamples : ∀ workload, ∃ summary, Summary.ofSamples workload samples = .ok summary ∧
    Carries name implementation n summary
  ofDurations : ∀ benchmark, ∃ summary,
    Summary.ofDurations benchmark implementation (samples.map (·.duration)) = .ok summary ∧
      Carries benchmark implementation n summary

section
variable {name implementation : String} {n : Nat} {samples : List Sample}

theorem Measured.ofDurations (h : Measured name implementation n samples) (benchmark : String) :
    ∃ summary,
      Summary.ofDurations benchmark implementation (samples.map (·.duration)) = .ok summary ∧
        Carries benchmark implementation n summary := by
  have hlength : (samples.map (·.duration)).length = n := by rw [List.length_map, h.length]
  have hne : samples.map (·.duration) ≠ [] := by
    intro hnil
    rw [hnil] at hlength
    exact h.pos.ne hlength
  obtain ⟨summary, hsummary, -⟩ :=
    Summary.ofDurations_reduces benchmark implementation hne h.numbers
  obtain ⟨hname, himplementation, hn⟩ := ofDurations_labels hsummary
  exact ⟨summary, hsummary, hname, himplementation, hn.trans hlength⟩

theorem Measured.ofSamples (h : Measured name implementation n samples) (workload : String) :
    ∃ summary, Summary.ofSamples workload samples = .ok summary ∧
      Carries name implementation n summary := by
  cases hsamples : samples with
  | nil =>
    have hlength := h.length
    rw [hsamples] at hlength
    exact absurd hlength h.pos.ne
  | cons first rest =>
    obtain ⟨hname, himplementation⟩ := h.labels first (by simp [hsamples])
    obtain ⟨summary, hsummary, hcarries⟩ := h.ofDurations name
    refine ⟨summary, ?_, hcarries⟩
    rw [Summary.ofSamples, hname, himplementation, ← hsamples, hsummary]

theorem Measured.reducible (h : Measured name implementation n samples) :
    Reducible name implementation n samples :=
  ⟨h.ofSamples, h.ofDurations⟩

end

/-! ## Trials -/

section
variable {σ : Type}

def Succeeds (runner : Runner (StateM σ)) (workload : String) (s : σ) (n : Nat) : Prop :=
  ∀ k < n, ∃ duration, Trials.answerAt runner workload s k = .ok duration ∧
    duration.isNaN = false

theorem samplesFrom_measured {workload implementation : String} {durations : Nat → Float}
    {n : Nat} (hpos : 0 < n) (h : ∀ k < n, (durations k).isNaN = false) :
    Measured workload implementation n
      (Trials.samplesFrom workload implementation durations 0 n) where
  pos := hpos
  length := by rw [Trials.samplesFrom, List.length_map, List.length_range]
  labels x hx := by
    obtain ⟨i, -, rfl⟩ := List.mem_map.mp hx
    exact ⟨rfl, rfl⟩
  numbers x hx := by
    rw [Trials.samplesFrom, List.map_map] at hx
    obtain ⟨i, hi, rfl⟩ := List.mem_map.mp hx
    exact h i (List.mem_range.mp hi)

theorem run_measured (plan : TrialPlan) {runner : Runner (StateM σ)} {workload : String} {s : σ}
    (implementation : String) (h : Succeeds runner workload s (plan.warmup + plan.iterations)) :
    ∃ samples last,
      Trials.perform (plan.run runner workload implementation) s = (.ok samples, last) ∧
        Measured workload implementation plan.iterations samples := by
  choose! durations hdurations using h
  refine ⟨_, _, Trials.run_completed durations fun k hk => (hdurations k hk).1, ?_⟩
  exact samplesFrom_measured plan.iterations_pos fun k hk =>
    (hdurations (plan.warmup + k) (by omega)).2

end

/-! ## Simulation -/

section
variable {σ : Type}

theorem labelled_measured (name : String) {durations : List Float} (hpos : durations ≠ [])
    (h : Numbers durations) :
    Measured name Simulation.label durations.length (Simulation.labelled name durations) where
  pos := List.length_pos_iff.mpr hpos
  length := List.length_mapIdx
  labels x hx := by
    obtain ⟨i, -, rfl⟩ := List.mem_mapIdx.mp hx
    exact ⟨rfl, rfl⟩
  numbers := by rwa [Simulation.labelled_durations]

theorem samples_measured (word : StateM σ UInt64) (name : String) {n : Nat} (hpos : 0 < n)
    (source : σ) :
    Measured name Simulation.label n ((Simulation.samples word name n).run source).1 := by
  obtain ⟨hnumbers, hlength⟩ := Simulation.durations_numbers word name n source
  have hne := List.length_pos_iff.mp (hlength.symm ▸ hpos)
  have hmeasured := labelled_measured name hne hnumbers
  rw [hlength] at hmeasured
  exact hmeasured

variable (machine : Machine σ)

def words : StateM σ UInt64 := fun s => machine.answer .word s

/-- On a machine the draws are those out of its words. -/
theorem draws_played (n : Nat) :
    played machine (Simulation.draws word n) =
      ExceptT.lift (Simulation.draws (words machine) n) := by
  induction n with
  | zero => rfl
  | succ n ih =>
    rw [Simulation.draws, Simulation.draws, Simulation.draw_eq, Simulation.draw_eq, played_bind]
    simp only [played_bind, played_pure, ih]
    rfl

theorem samples_played (name : String) (n : Nat) :
    played machine (Simulation.samples word name n) =
      ExceptT.lift (Simulation.samples (words machine) name n) := by
  rw [Simulation.samples, Simulation.samples, played_bind]
  unfold Simulation.durations
  split
  · rfl
  · rw [draws_played]
    rfl

end

/-! ## Measurements for the check -/

def labelOf (s : CheckSettings) : String :=
  if s.workloads.isSome then CheckSettings.implementation else Simulation.label

section
variable {σ : Type} (machine : Machine σ) (s : CheckSettings) (plan : TrialPlan)
  (benchmark : String) (state : σ)

def clientRunner : Runner (StateM σ) := fun file => played machine (s.client.runner file)

theorem work_takes
    (h : ∀ directory, s.workloads = some directory →
      Succeeds (clientRunner machine s) (CheckSettings.workloadPath directory benchmark) state
        (plan.warmup + plan.iterations)) :
    ∃ summary asked last, Takes machine (work s plan benchmark) state (.ok summary) asked last ∧
      Carries benchmark (labelOf s) plan.iterations summary := by
  rw [work, labelOf]
  cases hworkloads : s.workloads with
  | some directory =>
    obtain ⟨samples, last, hperform, hmeasured⟩ :=
      run_measured plan CheckSettings.implementation (h directory hworkloads)
    obtain ⟨summary, hsummary, hcarries⟩ := hmeasured.ofDurations benchmark
    have hrun : (plan.run s.client.runner (CheckSettings.workloadPath directory benchmark)
        CheckSettings.implementation).run.run machine state = (.ok samples, last) :=
      (congrFun (played_run machine s.client.runner _ plan _) state).trans hperform
    have hsamples : Takes machine (plan.run s.client.runner
        (CheckSettings.workloadPath directory benchmark) CheckSettings.implementation) state
        (.ok samples) _ last := ⟨hrun, rfl⟩
    exact ⟨summary, _, last, hsamples.bind_ok (takes_except machine hsummary last), hcarries⟩
  | none =>
    have hmeasured := samples_measured (words machine) benchmark plan.iterations_pos state
    obtain ⟨summary, hsummary, hcarries⟩ := hmeasured.ofSamples benchmark
    have hsamples : Takes machine (Simulation.samples word benchmark plan.iterations) state
        (.ok ((Simulation.samples (words machine) benchmark plan.iterations).run state).1) _
        ((Simulation.samples (words machine) benchmark plan.iterations).run state).2 :=
      ⟨congrFun (samples_played machine benchmark plan.iterations) state, rfl⟩
    exact ⟨summary, _, _, hsamples.bind_ok (takes_except machine hsummary _), hcarries⟩

theorem measure_takes
    (h : ∀ directory, s.workloads = some directory →
      Succeeds (clientRunner machine s) (CheckSettings.workloadPath directory benchmark)
        (afterSaying machine (announcement s plan benchmark) state)
        (plan.warmup + plan.iterations)) :
    ∃ summary asked last,
      Takes machine (s.measure plan benchmark) state (.ok summary) asked last ∧
        Carries benchmark (labelOf s) plan.iterations summary := by
  obtain ⟨summary, asked, last, htakes, hcarries⟩ := work_takes machine s plan benchmark _ h
  have htold := takes_request (ε := Fault) machine (.say (announcement s plan benchmark)) state
  rw [Measuring.measure_eq]
  exact ⟨summary, _, last, htold.bind_ok htakes, hcarries⟩

end

theorem of?_fields {iterations warmup : Nat} {plan : TrialPlan}
    (h : TrialPlan.of? iterations warmup = .ok plan) :
    plan.iterations = iterations ∧ plan.warmup = warmup := by
  rw [TrialPlan.of?] at h
  split at h
  · obtain rfl := Except.ok.inj h
    exact ⟨rfl, rfl⟩
  · exact nomatch h

theorem plan_fields {s : CheckSettings} {plan : TrialPlan} (h : s.plan = .ok plan) :
    plan.iterations = s.iterations ∧ plan.warmup = s.warmup := by
  rw [CheckSettings.plan] at h
  cases hvalid : validThreshold s.threshold with
  | error cause =>
    rw [hvalid] at h
    exact nomatch h
  | ok valid =>
    rw [hvalid] at h
    exact of?_fields h

/-- Trials whose executions all succeed and simulations of at least one iteration leave samples
that have a summary, under their own name and label or under the name of a benchmark, and with
their count. So the check measures a benchmark unless an execution fails. -/
theorem measurements_reduce :
    (∀ {σ : Type} {iterations warmup : Nat} {plan : TrialPlan} (runner : Runner (StateM σ))
        (workload implementation : String) (s : σ),
      TrialPlan.of? iterations warmup = .ok plan →
      Succeeds runner workload s (warmup + iterations) →
      ∃ samples last,
        Trials.perform (plan.run runner workload implementation) s = (.ok samples, last) ∧
          Reducible workload implementation iterations samples) ∧
    (∀ {σ : Type} (word : StateM σ UInt64) (name : String) (iterations : Nat) (source : σ),
      1 ≤ iterations →
      Reducible name "simulated" iterations
        ((Simulation.samples word name iterations).run source).1) ∧
    (∀ {σ : Type} (machine : Machine σ) (s : CheckSettings) (plan : TrialPlan)
        (benchmark : String) (state : σ),
      s.plan = .ok plan →
      (∀ directory, s.workloads = some directory →
        Succeeds (clientRunner machine s) (CheckSettings.workloadPath directory benchmark)
          (afterSaying machine (announcement s plan benchmark) state)
          (s.warmup + s.iterations)) →
      ∃ summary asked last,
        Takes machine (s.measure plan benchmark) state (.ok summary) asked last ∧
          Carries benchmark (if s.workloads.isSome then "pg_tviews" else "simulated")
            s.iterations summary) := by
  refine ⟨?_, ?_, ?_⟩
  · intro σ iterations warmup plan runner workload implementation s hplan h
    obtain ⟨rfl, rfl⟩ := of?_fields hplan
    obtain ⟨samples, last, hperform, hmeasured⟩ := run_measured plan implementation h
    exact ⟨samples, last, hperform, hmeasured.reducible⟩
  · intro σ word name iterations source hpos
    exact (samples_measured word name hpos source).reducible
  · intro σ machine s plan benchmark state hplan h
    obtain ⟨hiterations, hwarmup⟩ := plan_fields hplan
    rw [← hiterations, ← hwarmup] at h
    rw [← hiterations]
    exact measure_takes machine s plan benchmark state h

def countingRunner : Runner (StateM Nat) := fun _ => do
  let count ← get
  set (count + 1)
  return Float.ofNat count

def countingMachine : Machine Nat :=
  Saving.obliging "" fun count => (⟨.status 0, "", Float.ofNat count⟩, count + 1)

def countedSettings : CheckSettings :=
  ⟨"baseline.json", 2, 1, 0.1, some "sql", "results", ["bulk"], exampleClient⟩

theorem counting_succeeds {runner : Runner (StateM Nat)} {workload : String}
    (h : ∀ count, Trials.perform (runner workload) count = (.ok (Float.ofNat count), count + 1))
    {n : Nat} (hn : n < 2 ^ 64) : Succeeds runner workload 0 n := by
  have hstate : ∀ k, Trials.stateAfter runner workload 0 k = k := by
    intro k
    induction k with
    | zero => rfl
    | succ k ih => rw [Trials.stateAfter, ih, h]
  intro k hk
  refine ⟨Float.ofNat k, ?_, Number.isNaN_of_isFinite (Number.ofNat_isFinite (hk.trans hn))⟩
  rw [Trials.answerAt, hstate, h]

/-- Two executions after one for warmup, three draws out of zeros, and a benchmark of a check that
executes its workload. -/
theorem measurements_reduce_counted :
    (∃ samples last,
      Trials.perform (TrialPlan.run ⟨2, 1, Nat.two_pos⟩ countingRunner "a.sql" "x") 0 =
        (.ok samples, last) ∧ Reducible "a.sql" "x" 2 samples) ∧
    Reducible "mystery" "simulated" 3
      ((Simulation.samples Simulation.Words.next "mystery" 3).run ⟨[], 0⟩).1 ∧
    ∃ summary asked last,
      Takes countingMachine (countedSettings.measure ⟨2, 1, Nat.two_pos⟩ "bulk") 0 (.ok summary)
        asked last ∧ Carries "bulk" "pg_tviews" 2 summary := by
  have htrials : TrialPlan.of? 2 1 = .ok ⟨2, 1, Nat.two_pos⟩ := rfl
  have hplan : countedSettings.plan = .ok ⟨2, 1, Nat.two_pos⟩ := rfl
  exact ⟨measurements_reduce.1 _ "a.sql" "x" 0 htrials
      (counting_succeeds (fun _ => rfl) (by decide)),
    measurements_reduce.2.1 Simulation.Words.next "mystery" 3 ⟨[], 0⟩ (by decide),
    measurements_reduce.2.2 countingMachine countedSettings _ "bulk" 0 hplan fun directory _ =>
      counting_succeeds (fun _ => rfl) (by decide)⟩

end PerfGate.Reduction
