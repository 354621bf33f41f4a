import PerfGate.Commands.Check
import PerfGate.Proofs.Machine.Conduct

/-!
# Measuring for the check

A measurement announces itself once, then executes a workload or draws words and asks for
nothing else; the summary that it gives is named after its benchmark on both ways. Measuring a
list is one such measurement after another, up to the first that fails.
-/

set_option autoImplicit false

namespace PerfGate.Measuring

open Dialogue

/-! ## Kinds of requests -/

def begun : Request → Option String
  | .say (.running benchmark _) => some benchmark
  | .say (.simulating benchmark _) => some benchmark
  | _ => none

/-- Whether a request measures: it announces a measurement, executes, or draws. -/
def measures : Request → Bool
  | .say (.running _ _) => true
  | .say (.simulating _ _) => true
  | .execute _ _ => true
  | .word => true
  | _ => false

def writes : Request → Bool
  | .makeDirectory _ => true
  | .write _ _ => true
  | _ => false

def Works (r : Request) : Prop := begun r = none ∧ writes r = false

/-! ## What one measurement can ask and give -/

section
variable {P : Request → Prop} {runner : Runner Dialogue}

theorem warm_obeys (h : ∀ w, Obeys P (fun _ => True) (runner w)) (workload : String) (n : Nat) :
    Obeys P (fun _ => True) (TrialPlan.warm runner workload n) := by
  induction n with
  | zero => exact Obeys.pure trivial
  | succ n ih => exact Obeys.bind (h workload) fun _ _ => ih

theorem timed_obeys (h : ∀ w, Obeys P (fun _ => True) (runner w))
    (workload implementation : String) (iteration n : Nat) :
    Obeys P (fun _ => True) (TrialPlan.timed runner workload implementation iteration n) := by
  induction n generalizing iteration with
  | zero => exact Obeys.pure trivial
  | succ n ih =>
    exact Obeys.bind (h workload) fun _ _ =>
      Obeys.bind (ih (iteration + 1)) fun _ _ => Obeys.pure trivial

theorem run_obeys (h : ∀ w, Obeys P (fun _ => True) (runner w)) (plan : TrialPlan)
    (workload implementation : String) :
    Obeys P (fun _ => True) (plan.run runner workload implementation) :=
  Obeys.bind (warm_obeys h workload _) fun _ _ => timed_obeys h workload implementation 0 _

end

theorem client_obeys (client : Client) (workload : String) :
    Obeys Works (fun _ => True) (client.runner workload) :=
  ⟨⟨rfl, rfl⟩, fun _ => by intro _ _; trivial⟩

def word : Job UInt64 := ExceptT.lift (request .word)

theorem word_obeys : Obeys Works (fun _ => True) word :=
  obeys_lift (ensures_request ⟨rfl, rfl⟩)

theorem draw_obeys (attempts : Nat) :
    Obeys Works (fun _ => True) (Simulation.draw word attempts) := by
  induction attempts with
  | zero => exact Obeys.pure trivial
  | succ attempts ih =>
    refine Obeys.bind word_obeys fun w _ => ?_
    simp only []
    split
    · exact Obeys.pure trivial
    · exact ih

theorem draws_obeys (n : Nat) : Obeys Works (fun _ => True) (Simulation.draws word n) := by
  induction n with
  | zero => exact Obeys.pure trivial
  | succ n ih =>
    exact Obeys.bind (draw_obeys 64) fun _ _ => Obeys.bind ih fun _ _ => Obeys.pure trivial

theorem labelled_name (benchmark : String) (durations : List Float) :
    ∀ x ∈ Simulation.labelled benchmark durations, x.name = benchmark := by
  intro x hx
  obtain ⟨i, hi, rfl⟩ := List.mem_mapIdx.mp hx
  rfl

theorem samples_obeys (benchmark : String) (iterations : Nat) :
    Obeys Works (fun samples => ∀ x ∈ samples, x.name = benchmark)
      (Simulation.samples word benchmark iterations) := by
  have hdurations : Obeys Works (fun _ => True)
      (Simulation.durations word benchmark iterations) := by
    unfold Simulation.durations
    split
    · exact Obeys.pure trivial
    · exact draws_obeys iterations
  exact Obeys.bind hdurations fun durations _ => Obeys.pure (labelled_name benchmark durations)

theorem ofDurations_labels {name implementation : String} {durations : List Float}
    {summary : Summary} (h : Summary.ofDurations name implementation durations = .ok summary) :
    summary.name = name ∧ summary.implementation = implementation ∧
      summary.n = durations.length := by
  unfold Summary.ofDurations at h
  split at h
  · exact nomatch h
  · simp only at h
    split at h
    · exact nomatch h
    · cases h
      exact ⟨rfl, rfl, rfl⟩

theorem ofDurations_name {name implementation : String} {durations : List Float}
    {summary : Summary} (h : Summary.ofDurations name implementation durations = .ok summary) :
    summary.name = name :=
  (ofDurations_labels h).1

/-- There is no summary of nothing. -/
theorem ofDurations_pos {name implementation : String} {durations : List Float}
    {summary : Summary} (h : Summary.ofDurations name implementation durations = .ok summary) :
    0 < summary.n := by
  rw [(ofDurations_labels h).2.2]
  cases durations with
  | nil => exact nomatch h
  | cons x rest => exact Nat.succ_pos _

theorem ofSamples_pos {workload : String} {samples : List Sample} {summary : Summary}
    (h : Summary.ofSamples workload samples = .ok summary) : 0 < summary.n := by
  cases samples with
  | nil => exact nomatch h
  | cons first rest => exact ofDurations_pos h

/-- The summary of samples that carry one name carries it too. -/
theorem ofSamples_name {benchmark workload : String} {samples : List Sample} {summary : Summary}
    (hnames : ∀ x ∈ samples, x.name = benchmark)
    (h : Summary.ofSamples workload samples = .ok summary) : summary.name = benchmark := by
  cases samples with
  | nil => exact nomatch h
  | cons first rest => rw [ofDurations_name h, hnames first List.mem_cons_self]

/-! ## One measurement -/

variable (s : CheckSettings) (plan : TrialPlan)

def announcement (benchmark : String) : Notice :=
  if s.workloads.isSome then .running benchmark plan.iterations
  else .simulating benchmark plan.iterations

def work (benchmark : String) : Job Summary :=
  match s.workloads with
  | some directory => do
    let samples ← plan.run s.client.runner (CheckSettings.workloadPath directory benchmark)
      CheckSettings.implementation
    ExceptT.mk (pure (Summary.ofDurations benchmark CheckSettings.implementation
      (samples.map (·.duration))))
  | none => do
    let samples ← Simulation.samples word benchmark plan.iterations
    ExceptT.mk (pure (Summary.ofSamples benchmark samples))

theorem measure_eq (benchmark : String) :
    s.measure plan benchmark = (do
      ExceptT.lift (request (.say (announcement s plan benchmark)))
      work s plan benchmark) := by
  unfold CheckSettings.measure announcement work
  cases s.workloads <;> rfl

theorem work_obeys (benchmark : String) :
    Obeys Works (fun summary => summary.name = benchmark ∧ 0 < summary.n)
      (work s plan benchmark) := by
  unfold work
  split
  · exact Obeys.bind (run_obeys (client_obeys s.client) plan _ _) fun _ _ =>
      obeys_of_except fun _ h => ⟨ofDurations_name h, ofDurations_pos h⟩
  · exact Obeys.bind (samples_obeys benchmark plan.iterations) fun _ hnames =>
      obeys_of_except fun _ h => ⟨ofSamples_name hnames h, ofSamples_pos h⟩

theorem announcement_begun (benchmark : String) :
    begun (.say (announcement s plan benchmark)) = some benchmark := by
  unfold announcement
  split <;> rfl

theorem filterMap_begun {asked : List Request} (h : ∀ r ∈ asked, Works r) :
    asked.filterMap begun = [] :=
  List.filterMap_eq_nil_iff.mpr fun r hr => (h r hr).1

/-- Every measurement begins exactly once, for its own benchmark, and leaves files alone. -/
theorem measure_requests {σ : Type} {machine : Machine σ} {benchmark : String} {state next : σ}
    {result : Except Fault Summary} {asked : List Request}
    (h : Takes machine (s.measure plan benchmark) state result asked next) :
    asked.filterMap begun = [benchmark] ∧ ∀ r ∈ asked, writes r = false := by
  have hworks := (work_obeys s plan benchmark).requests machine
    (machine.answer (.say (announcement s plan benchmark)) state).2
  have hasked : asked = .say (announcement s plan benchmark) ::
      (work s plan benchmark).run.requests machine
        (machine.answer (.say (announcement s plan benchmark)) state).2 := by
    rw [← h.requests, measure_eq]
    rfl
  rw [hasked]
  constructor
  · rw [List.filterMap_cons_some (announcement_begun s plan benchmark), filterMap_begun hworks]
  · intro r hr
    rcases List.mem_cons.mp hr with rfl | hr
    · rfl
    · exact (hworks r hr).2

theorem measure_summary {σ : Type} {machine : Machine σ} {benchmark : String} {state next : σ}
    {summary : Summary} {asked : List Request}
    (h : Takes machine (s.measure plan benchmark) state (.ok summary) asked next) :
    summary.name = benchmark ∧ 0 < summary.n := by
  have hworks := (work_obeys s plan benchmark).run machine
    (machine.answer (.say (announcement s plan benchmark)) state).2
  apply hworks
  have hrun := congrArg Prod.fst h.run
  rw [measure_eq] at hrun
  exact hrun

theorem measure_name {σ : Type} {machine : Machine σ} {benchmark : String} {state next : σ}
    {summary : Summary} {asked : List Request}
    (h : Takes machine (s.measure plan benchmark) state (.ok summary) asked next) :
    summary.name = benchmark :=
  (measure_summary s plan h).1

/-! ## Measuring a list -/

section
variable {σ : Type} (machine : Machine σ)

/-- Measurements one after another, each compared with its entry and told of: what has been
measured, where it stopped if a measurement failed, what was asked, and the last state. -/
inductive Course : List (String × BaselineEntry) → σ → List (Summary × Comparison) →
    Option (String × Fault) → List Request → σ → Prop where
  | finished (state : σ) : Course [] state [] none [] state
  | failed {benchmark : String} {entry : BaselineEntry} {rest : List (String × BaselineEntry)}
      {state last : σ} {cause : Fault} {asked : List Request}
      (failure : Takes machine (s.measure plan benchmark) state (.error cause) asked last) :
      Course ((benchmark, entry) :: rest) state [] (some (benchmark, cause)) asked last
  | measured {benchmark : String} {entry : BaselineEntry} {rest : List (String × BaselineEntry)}
      {state next last : σ} {summary : Summary} {others : List (Summary × Comparison)}
      {stop : Option (String × Fault)} {asked later : List Request}
      (success : Takes machine (s.measure plan benchmark) state (.ok summary) asked next)
      (after : Course rest
        (machine.answer (.say (.compared (compareWith entry summary s.threshold))) next).2
        others stop later last) :
      Course ((benchmark, entry) :: rest) state
        ((summary, compareWith entry summary s.threshold) :: others) stop
        (asked ++ .say (.compared (compareWith entry summary s.threshold)) :: later) last

def ending (measured : List (Summary × Comparison)) :
    Option (String × Fault) → Except Failure (List (Summary × Comparison))
  | none => .ok measured
  | some (benchmark, cause) => .error (.benchmark benchmark cause)

theorem takes_within {α : Type} (context : Fault → Failure) {task : Job α} {state next : σ}
    {result : Except Fault α} {asked : List Request}
    (h : Takes machine task state result asked next) :
    Takes machine (Job.within context task) state (result.mapError context) asked next := by
  have hrun := run_bind machine task.run (fun r => .done (r.mapError context)) state
  have hrequests := requests_bind machine task.run (fun r => .done (r.mapError context)) state
  rw [h.run] at hrun hrequests
  rw [h.requests] at hrequests
  exact ⟨hrun, hrequests.trans (List.append_nil asked)⟩

theorem takes_of_within {α : Type} {context : Fault → Failure} {task : Job α} {state next : σ}
    {a : α} {asked : List Request}
    (h : Takes machine (Job.within context task) state (.ok a) asked next) :
    Takes machine task state (.ok a) asked next := by
  have htask := takes_run machine task state
  obtain ⟨hresult, hasked, hnext⟩ := h.unique (takes_within machine context htask)
  rw [← hasked, ← hnext] at htask
  cases hcase : (task.run.run machine state).1 with
  | error cause => rw [hcase] at hresult; exact nomatch hresult
  | ok b =>
    rw [hcase] at hresult htask
    obtain rfl : a = b := Except.ok.inj hresult
    exact htask

theorem takes_cons {task : Attempt (List (Summary × Comparison))} {x : Summary × Comparison}
    {measured : List (Summary × Comparison)} {stop : Option (String × Fault)}
    {asked : List Request} {state last : σ}
    (h : Takes machine task state (ending measured stop) asked last) :
    Takes machine (do let others ← task; return x :: others) state
      (ending (x :: measured) stop) asked last := by
  cases stop with
  | none =>
    have hpure := takes_pure (ε := Failure) machine (x :: measured) last
    exact List.append_nil asked ▸ h.bind_ok (f := fun others => pure (x :: others)) hpure
  | some stopped => exact h.bind_error

theorem measureAll_course (pairs : List (String × BaselineEntry)) (state : σ) :
    ∃ measured stop asked last, Course s plan machine pairs state measured stop asked last ∧
      Takes machine (s.measureAll plan pairs) state (ending measured stop) asked last := by
  induction pairs generalizing state with
  | nil => exact ⟨_, _, _, _, .finished state, takes_pure machine _ state⟩
  | cons pair rest ih =>
    obtain ⟨benchmark, entry⟩ := pair
    have hmeasure := takes_run machine (s.measure plan benchmark) state
    cases hresult : ((s.measure plan benchmark).run.run machine state).1 with
    | error cause =>
      rw [hresult] at hmeasure
      exact ⟨_, _, _, _, .failed hmeasure,
        (takes_within machine (.benchmark benchmark) hmeasure).bind_error⟩
    | ok summary =>
      rw [hresult] at hmeasure
      obtain ⟨others, stop, later, last, hcourse, hrest⟩ := ih
        (machine.answer (.say (.compared (compareWith entry summary s.threshold)))
          ((s.measure plan benchmark).run.run machine state).2).2
      refine ⟨_, _, _, _, .measured hmeasure hcourse, ?_⟩
      have hwithin := takes_within machine (.benchmark benchmark) hmeasure
      have htold := takes_request (ε := Failure) machine
        (.say (.compared (compareWith entry summary s.threshold)))
        ((s.measure plan benchmark).run.run machine state).2
      exact hwithin.bind_ok (htold.bind_ok (takes_cons machine hrest))

variable {s plan machine}

theorem course_of_takes {pairs : List (String × BaselineEntry)} {state next : σ}
    {measured : List (Summary × Comparison)} {asked : List Request}
    (h : Takes machine (s.measureAll plan pairs) state (.ok measured) asked next) :
    Course s plan machine pairs state measured none asked next := by
  obtain ⟨measured', stop, asked', last, hcourse, htakes⟩ :=
    measureAll_course s plan machine pairs state
  obtain ⟨hresult, rfl, rfl⟩ := h.unique htakes
  cases stop with
  | none =>
    obtain rfl := Except.ok.inj hresult
    exact hcourse
  | some stopped => exact nomatch hresult

theorem course_of_ok {pairs : List (String × BaselineEntry)} {state next : σ}
    {measured : List (Summary × Comparison)}
    (h : (s.measureAll plan pairs).run.run machine state = (.ok measured, next)) :
    ∃ asked, Course s plan machine pairs state measured none asked next :=
  ⟨_, course_of_takes ⟨h, rfl⟩⟩

variable {pairs : List (String × BaselineEntry)} {state last : σ}
  {measured : List (Summary × Comparison)} {stop : Option (String × Fault)}
  {asked : List Request}

/-- The measurements that begin are those that succeed and the one that does not. -/
theorem Course.begun_eq (h : Course s plan machine pairs state measured stop asked last) :
    asked.filterMap begun = measured.map (·.1.name) ++ (stop.map (·.1)).toList := by
  induction h with
  | finished state => rfl
  | failed failure => exact (measure_requests s plan failure).1
  | measured success after ih =>
    rw [List.filterMap_append, (measure_requests s plan success).1, List.filterMap_cons_none rfl,
      ih, List.map_cons, measure_name s plan success]
    rfl

theorem Course.quiet (h : Course s plan machine pairs state measured stop asked last) :
    ∀ r ∈ asked, writes r = false := by
  induction h with
  | finished state => simp
  | failed failure => exact (measure_requests s plan failure).2
  | measured success after ih =>
    intro r hr
    rcases List.mem_append.mp hr with hr | hr
    · exact (measure_requests s plan success).2 r hr
    · rcases List.mem_cons.mp hr with rfl | hr
      · rfl
      · exact ih r hr

/-- What has been measured is the list up to the benchmark that failed, and all of it if none
failed. -/
theorem Course.names (h : Course s plan machine pairs state measured stop asked last) :
    ∃ later, pairs.map (·.1) = measured.map (·.1.name) ++ (stop.map (·.1)).toList ++ later ∧
      (stop = none → later = []) := by
  induction h with
  | finished state => exact ⟨[], rfl, fun _ => rfl⟩
  | @failed benchmark entry rest state last cause asked failure =>
    exact ⟨rest.map (·.1), rfl, fun h => nomatch h⟩
  | measured success after ih =>
    obtain ⟨later, hlater, hnone⟩ := ih
    refine ⟨later, ?_, hnone⟩
    rw [List.map_cons, List.map_cons, hlater, measure_name s plan success]
    rfl

/-- Each comparison is that of its summary with the entry in its place. -/
theorem Course.compared (h : Course s plan machine pairs state measured stop asked last)
    (hstop : stop = none) :
    List.Forall₂ (fun pair m => m.1.name = pair.1 ∧ m.2 = compareWith pair.2 m.1 s.threshold)
      pairs measured := by
  induction h with
  | finished state => exact .nil
  | failed failure => exact nomatch hstop
  | measured success after ih => exact .cons ⟨measure_name s plan success, rfl⟩ (ih hstop)

/-- What has been measured has been sampled, and its comparison has been told. -/
theorem Course.told (h : Course s plan machine pairs state measured stop asked last) :
    ∀ m ∈ measured, 0 < m.1.n ∧ .say (.compared m.2) ∈ asked := by
  induction h with
  | finished state => simp
  | failed failure => simp
  | measured success after ih =>
    intro m hm
    rcases List.mem_cons.mp hm with rfl | hm
    · exact ⟨(measure_summary s plan success).2, by simp⟩
    · exact ⟨(ih m hm).1, by simp [(ih m hm).2]⟩

end

end PerfGate.Measuring
