import PerfGate.Measurement.Trial
import Mathlib.Tactic

/-!
# Trials of a stateful runner

A runner is here any machine with a state that may fail at any call. What it would answer to
call after call for one workload is a sequence that does not depend on the loops of a trial
plan. A run is settled by the first calls of that sequence: either all of them succeed, or the
first failure is the last call.
-/

set_option autoImplicit false

namespace PerfGate.Trials

section
variable {σ α β : Type}

def perform (action : ExceptT Fault (StateM σ) α) (s : σ) : Except Fault α × σ :=
  action.run.run s

theorem perform_bind_ok {action : ExceptT Fault (StateM σ) α} {s t : σ} {a : α}
    (next : α → ExceptT Fault (StateM σ) β) (h : perform action s = (.ok a, t)) :
    perform (action >>= next) s = perform (next a) t := by
  change (ExceptT.bindCont next (action.run.run s).1).run (action.run.run s).2 = _
  rw [show action.run.run s = (.ok a, t) from h]
  rfl

theorem perform_bind_error {action : ExceptT Fault (StateM σ) α} {s t : σ} {cause : Fault}
    (next : α → ExceptT Fault (StateM σ) β) (h : perform action s = (.error cause, t)) :
    perform (action >>= next) s = (.error cause, t) := by
  change (ExceptT.bindCont next (action.run.run s).1).run (action.run.run s).2 = _
  rw [show action.run.run s = (.error cause, t) from h]
  rfl

end

/-! ## Call after call -/

section
variable {σ : Type} (runner : Runner (StateM σ)) (workload : String)

/-- The state after so many calls for a workload, failed ones included. -/
def stateAfter (s : σ) : Nat → σ
  | 0 => s
  | n + 1 => (perform (runner workload) (stateAfter s n)).2

def answerAt (s : σ) (n : Nat) : Except Fault Float :=
  (perform (runner workload) (stateAfter runner workload s n)).1

theorem stateAfter_add (s : σ) (m n : Nat) :
    stateAfter runner workload (stateAfter runner workload s m) n =
      stateAfter runner workload s (m + n) := by
  induction n with
  | zero => rfl
  | succ n ih => rw [stateAfter, ih, ← Nat.add_assoc, ← stateAfter]

theorem answerAt_add (s : σ) (m n : Nat) :
    answerAt runner workload (stateAfter runner workload s m) n =
      answerAt runner workload s (m + n) := by
  rw [answerAt, stateAfter_add, ← answerAt]

theorem perform_first (s : σ) :
    perform (runner workload) s =
      (answerAt runner workload s 0, stateAfter runner workload s 1) := rfl

end

/-! ## The two loops -/

section
variable {σ : Type} {runner : Runner (StateM σ)} {workload : String}

def samplesFrom (workload implementation : String) (durations : Nat → Float)
    (iteration n : Nat) : List Sample :=
  (List.range n).map fun i => ⟨workload, implementation, durations i, iteration + i⟩

theorem samplesFrom_succ (workload implementation : String) (durations : Nat → Float)
    (iteration n : Nat) :
    samplesFrom workload implementation durations iteration (n + 1) =
      ⟨workload, implementation, durations 0, iteration⟩ ::
        samplesFrom workload implementation (fun i => durations (i + 1)) (iteration + 1) n := by
  simp only [samplesFrom, List.range_succ_eq_map, List.map_cons, List.map_map, Nat.add_zero]
  congr 1
  apply List.map_congr_left
  intro i _
  simp only [Function.comp_apply, Nat.succ_eq_add_one]
  rw [Nat.add_right_comm, Nat.add_assoc]

theorem timed_completed (implementation : String) (n : Nat) (durations : Nat → Float)
    (iteration : Nat) (s : σ)
    (h : ∀ k < n, answerAt runner workload s k = .ok (durations k)) :
    perform (TrialPlan.timed runner workload implementation iteration n) s =
      (.ok (samplesFrom workload implementation durations iteration n),
        stateAfter runner workload s n) := by
  induction n generalizing s durations iteration with
  | zero => rfl
  | succ n ih =>
    have hfirst := perform_first runner workload s
    rw [h 0 (by omega)] at hfirst
    have hrest := ih (fun k => durations (k + 1)) (iteration + 1) (stateAfter runner workload s 1)
      (by
        intro k hk
        rw [answerAt_add, Nat.add_comm 1]
        exact h (k + 1) (by omega))
    rw [stateAfter_add, Nat.add_comm 1] at hrest
    rw [TrialPlan.timed, perform_bind_ok _ hfirst, perform_bind_ok _ hrest, samplesFrom_succ]
    rfl

theorem timed_failed (implementation : String) (n : Nat) (iteration : Nat) (s : σ) (k : Nat)
    (cause : Fault) (hk : k < n)
    (before : ∀ j < k, ∃ duration, answerAt runner workload s j = .ok duration)
    (failure : answerAt runner workload s k = .error cause) :
    perform (TrialPlan.timed runner workload implementation iteration n) s =
      (.error cause, stateAfter runner workload s (k + 1)) := by
  induction n generalizing s k iteration with
  | zero => omega
  | succ n ih =>
    have hfirst := perform_first runner workload s
    cases k with
    | zero =>
      rw [failure] at hfirst
      rw [TrialPlan.timed, perform_bind_error _ hfirst]
    | succ k =>
      obtain ⟨duration, hd⟩ := before 0 (by omega)
      rw [hd] at hfirst
      have hrest := ih (iteration + 1) (stateAfter runner workload s 1) k (by omega)
        (by
          intro j hj
          rw [answerAt_add, Nat.add_comm 1]
          exact before (j + 1) (by omega))
        (by rw [answerAt_add, Nat.add_comm 1, failure])
      rw [stateAfter_add, Nat.add_comm 1] at hrest
      rw [TrialPlan.timed, perform_bind_ok _ hfirst, perform_bind_error _ hrest]

/-- Warming up is timing without keeping the samples. -/
theorem warm_eq_timed (implementation : String) (iteration n : Nat) :
    TrialPlan.warm runner workload n =
      (do let _ ← TrialPlan.timed runner workload implementation iteration n; pure ()) := by
  induction n generalizing iteration with
  | zero => rfl
  | succ n ih =>
    rw [TrialPlan.warm, ih (iteration + 1), TrialPlan.timed]
    simp only [bind_assoc, pure_bind]

theorem warm_completed (n : Nat) (durations : Nat → Float) (s : σ)
    (h : ∀ k < n, answerAt runner workload s k = .ok (durations k)) :
    perform (TrialPlan.warm runner workload n) s = (.ok (), stateAfter runner workload s n) := by
  rw [warm_eq_timed workload 0, perform_bind_ok _ (timed_completed workload n durations 0 s h)]
  rfl

theorem warm_failed (n : Nat) (s : σ) (k : Nat) (cause : Fault) (hk : k < n)
    (before : ∀ j < k, ∃ duration, answerAt runner workload s j = .ok duration)
    (failure : answerAt runner workload s k = .error cause) :
    perform (TrialPlan.warm runner workload n) s =
      (.error cause, stateAfter runner workload s (k + 1)) := by
  rw [warm_eq_timed workload 0,
    perform_bind_error _ (timed_failed workload n 0 s k cause hk before failure)]

/-! ## One run -/

variable {plan : TrialPlan} {implementation : String} {s : σ}

theorem run_completed (durations : Nat → Float)
    (h : ∀ k < plan.warmup + plan.iterations,
      answerAt runner workload s k = .ok (durations k)) :
    perform (plan.run runner workload implementation) s =
      (.ok (samplesFrom workload implementation (fun i => durations (plan.warmup + i)) 0
        plan.iterations),
        stateAfter runner workload s (plan.warmup + plan.iterations)) := by
  have hwarm := warm_completed plan.warmup durations s (fun k hk => h k (by omega))
  have htimed := timed_completed implementation plan.iterations
    (fun i => durations (plan.warmup + i)) 0 (stateAfter runner workload s plan.warmup)
    (by
      intro k hk
      rw [answerAt_add]
      exact h (plan.warmup + k) (by omega))
  rw [TrialPlan.run, perform_bind_ok _ hwarm, htimed, stateAfter_add]

/-- The failure may fall into the warmup, onto its end, or anywhere after it. -/
theorem run_failed (k : Nat) (cause : Fault) (hk : k < plan.warmup + plan.iterations)
    (before : ∀ j < k, ∃ duration, answerAt runner workload s j = .ok duration)
    (failure : answerAt runner workload s k = .error cause) :
    perform (plan.run runner workload implementation) s =
      (.error cause, stateAfter runner workload s (k + 1)) := by
  by_cases hw : k < plan.warmup
  · have hwarm := warm_failed plan.warmup s k cause hw before failure
    rw [TrialPlan.run, perform_bind_error _ hwarm]
  · obtain ⟨n, rfl⟩ := Nat.exists_eq_add_of_le (Nat.le_of_not_lt hw)
    choose! durations hd using before
    have hwarm := warm_completed plan.warmup durations s (fun j hj => hd j (by omega))
    have htimed := timed_failed implementation plan.iterations 0
      (stateAfter runner workload s plan.warmup) n cause (by omega)
      (by
        intro j hj
        rw [answerAt_add]
        exact ⟨_, hd (plan.warmup + j) (by omega)⟩)
      (by rw [answerAt_add, failure])
    rw [TrialPlan.run, perform_bind_ok _ hwarm, htimed, stateAfter_add, Nat.add_assoc]

end

/-! ## What a runner is called for -/

section
variable {σ : Type}

def recorded (runner : Runner (StateM σ)) : Runner (StateM (σ × List String)) :=
  fun workload => ExceptT.mk fun (s, calls) =>
    let (answer, t) := perform (runner workload) s
    (answer, (t, calls ++ [workload]))

theorem stateAfter_recorded (runner : Runner (StateM σ)) (workload : String) (s : σ)
    (calls : List String) (n : Nat) :
    stateAfter (recorded runner) workload (s, calls) n =
      (stateAfter runner workload s n, calls ++ List.replicate n workload) := by
  induction n with
  | zero => simp [stateAfter]
  | succ n ih =>
    rw [stateAfter, ih, List.replicate_succ', ← List.append_assoc]
    rfl

theorem answerAt_recorded (runner : Runner (StateM σ)) (workload : String) (s : σ)
    (calls : List String) (n : Nat) :
    answerAt (recorded runner) workload (s, calls) n = answerAt runner workload s n := by
  rw [answerAt, stateAfter_recorded]
  rfl

end

/-! ## Runs in sequence -/

structure Benchmark where
  plan : TrialPlan
  workload : String
  implementation : String

/-- Runs one after another on the same runner; one that fails does not end the others. -/
def runAll {m : Type → Type} [Monad m] (runner : Runner m) :
    List Benchmark → m (List (Except Fault (List Sample)))
  | [] => pure []
  | b :: rest => do
    let result ← (b.plan.run runner b.workload b.implementation).run
    let others ← runAll runner rest
    return result :: others

section
variable {σ : Type} (runner : Runner (StateM σ))

inductive Settles (b : Benchmark) (s : σ) :
    Except Fault (List Sample) → List String → σ → Prop where
  | completed (durations : Nat → Float)
      (h : ∀ k < b.plan.warmup + b.plan.iterations,
        answerAt runner b.workload s k = .ok (durations k)) :
      Settles b s
        (.ok ((List.range b.plan.iterations).map fun i =>
          ⟨b.workload, b.implementation, durations (b.plan.warmup + i), i⟩))
        (List.replicate (b.plan.warmup + b.plan.iterations) b.workload)
        (stateAfter runner b.workload s (b.plan.warmup + b.plan.iterations))
  | failed (k : Nat) (cause : Fault) (hk : k < b.plan.warmup + b.plan.iterations)
      (before : ∀ j < k, ∃ duration, answerAt runner b.workload s j = .ok duration)
      (failure : answerAt runner b.workload s k = .error cause) :
      Settles b s (.error cause) (List.replicate (k + 1) b.workload)
        (stateAfter runner b.workload s (k + 1))

inductive SettleAll :
    List Benchmark → σ → List (Except Fault (List Sample)) → List String → σ → Prop where
  | nil (s : σ) : SettleAll [] s [] [] s
  | cons {b : Benchmark} {rest : List Benchmark} {s t u : σ}
      {result : Except Fault (List Sample)} {results : List (Except Fault (List Sample))}
      {calls others : List String}
      (first : Settles runner b s result calls t)
      (after : SettleAll rest t results others u) :
      SettleAll (b :: rest) s (result :: results) (calls ++ others) u

end

section
variable {σ : Type} (runner : Runner (StateM σ))

/-- Either all calls succeed, or one of them is the first to fail. -/
theorem first_failure (workload : String) (s : σ) (n : Nat) :
    (∃ durations : Nat → Float, ∀ k < n, answerAt runner workload s k = .ok (durations k)) ∨
      ∃ k < n, ∃ cause, answerAt runner workload s k = .error cause ∧
        ∀ j < k, ∃ duration, answerAt runner workload s j = .ok duration := by
  induction n with
  | zero => exact .inl ⟨fun _ => 0.0, by omega⟩
  | succ n ih =>
    rcases ih with ⟨durations, h⟩ | ⟨k, hk, cause, failure, before⟩
    · cases hn : answerAt runner workload s n with
      | error cause => exact .inr ⟨n, by omega, cause, hn, fun j hj => ⟨_, h j hj⟩⟩
      | ok duration =>
        refine .inl ⟨fun k => if k = n then duration else durations k, fun k hk => ?_⟩
        by_cases hkn : k = n
        · simp [hkn, hn]
        · simp [hkn, h k (by omega)]
    · exact .inr ⟨k, by omega, cause, failure, before⟩

theorem settles_exists (b : Benchmark) (s : σ) :
    ∃ result calls t, Settles runner b s result calls t := by
  rcases first_failure runner b.workload s (b.plan.warmup + b.plan.iterations) with
    ⟨durations, h⟩ | ⟨k, hk, cause, failure, before⟩
  · exact ⟨_, _, _, .completed durations h⟩
  · exact ⟨_, _, _, .failed k cause hk before failure⟩

theorem settleAll_exists (benchmarks : List Benchmark) (s : σ) :
    ∃ results calls t, SettleAll runner benchmarks s results calls t := by
  induction benchmarks generalizing s with
  | nil => exact ⟨_, _, _, .nil s⟩
  | cons b rest ih =>
    obtain ⟨result, calls, t, first⟩ := settles_exists runner b s
    obtain ⟨results, others, u, after⟩ := ih t
    exact ⟨_, _, _, .cons first after⟩

variable {runner}

theorem run_of_settles {b : Benchmark} {s t : σ} {result : Except Fault (List Sample)}
    {calls : List String} (h : Settles runner b s result calls t) :
    perform (b.plan.run runner b.workload b.implementation) s = (result, t) := by
  cases h with
  | completed durations h => simpa [samplesFrom] using run_completed durations h
  | failed k cause hk before failure => exact run_failed k cause hk before failure

/-- Writing the calls down changes nothing but the list of calls. -/
theorem recorded_of_settles {b : Benchmark} {s t : σ} {result : Except Fault (List Sample)}
    {calls : List String} (h : Settles runner b s result calls t) (log : List String) :
    perform (b.plan.run (recorded runner) b.workload b.implementation) (s, log) =
      (result, (t, log ++ calls)) := by
  cases h with
  | completed durations h =>
    have hr : ∀ k < b.plan.warmup + b.plan.iterations,
        answerAt (recorded runner) b.workload (s, log) k = .ok (durations k) := by
      intro k hk
      rw [answerAt_recorded, h k hk]
    rw [run_completed durations hr, stateAfter_recorded]
    simp [samplesFrom]
  | failed k cause hk before failure =>
    have hb : ∀ j < k, ∃ duration,
        answerAt (recorded runner) b.workload (s, log) j = .ok duration := by
      intro j hj
      rw [answerAt_recorded]
      exact before j hj
    have hf : answerAt (recorded runner) b.workload (s, log) k = .error cause := by
      rw [answerAt_recorded, failure]
    rw [run_failed k cause hk hb hf, stateAfter_recorded]

theorem runAll_cons {b : Benchmark} {rest : List Benchmark} {s t u : σ}
    {result : Except Fault (List Sample)} {results : List (Except Fault (List Sample))}
    (first : perform (b.plan.run runner b.workload b.implementation) s = (result, t))
    (after : (runAll runner rest).run t = (results, u)) :
    (runAll runner (b :: rest)).run s = (result :: results, u) := by
  have hrun : (runAll runner (b :: rest)).run s =
      ((perform (b.plan.run runner b.workload b.implementation) s).1 ::
          ((runAll runner rest).run
            (perform (b.plan.run runner b.workload b.implementation) s).2).1,
        ((runAll runner rest).run
          (perform (b.plan.run runner b.workload b.implementation) s).2).2) := rfl
  rw [hrun, first, after]

theorem runAll_of_settleAll {benchmarks : List Benchmark} {s t : σ}
    {results : List (Except Fault (List Sample))} {calls : List String}
    (h : SettleAll runner benchmarks s results calls t) :
    (runAll runner benchmarks).run s = (results, t) := by
  induction h with
  | nil s => rfl
  | cons first after ih => exact runAll_cons (run_of_settles first) ih

theorem recordedAll_of_settleAll {benchmarks : List Benchmark} {s t : σ}
    {results : List (Except Fault (List Sample))} {calls : List String}
    (h : SettleAll runner benchmarks s results calls t) (log : List String) :
    (runAll (recorded runner) benchmarks).run (s, log) = (results, (t, log ++ calls)) := by
  induction h generalizing log with
  | nil s =>
    rw [List.append_nil]
    rfl
  | @cons b rest s t u result results calls others first after ih =>
    rw [← List.append_assoc]
    exact runAll_cons (recorded_of_settles first log) (ih (log ++ calls))

end

/-- The trial discipline. For any runner and any sequence of runs that share it, the results,
the calls made in order and the last state are exactly those that the answers of the runner
settle run by run: a run calls for its own workload only, keeps one sample of each timed call
if all calls succeed, and otherwise ends with its first failing call. -/
theorem runs_settle_iff {σ : Type} (runner : Runner (StateM σ)) (benchmarks : List Benchmark)
    (s t : σ) (results : List (Except Fault (List Sample))) (calls : List String) :
    ((runAll (recorded runner) benchmarks).run (s, []) = (results, (t, calls)) ↔
      SettleAll runner benchmarks s results calls t) ∧
    ((runAll runner benchmarks).run s =
      (((runAll (recorded runner) benchmarks).run (s, [])).1,
        ((runAll (recorded runner) benchmarks).run (s, [])).2.1)) := by
  obtain ⟨results', calls', t', h⟩ := settleAll_exists runner benchmarks s
  have hrecorded := recordedAll_of_settleAll h []
  rw [List.nil_append] at hrecorded
  refine ⟨⟨fun heq => ?_, fun hs => recordedAll_of_settleAll hs []⟩, ?_⟩
  · have hall : (results, (t, calls)) = (results', (t', calls')) := heq.symm.trans hrecorded
    cases hall
    exact h
  · rw [hrecorded]
    exact runAll_of_settleAll h

end PerfGate.Trials
