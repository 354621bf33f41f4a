import PerfGate.Fault
import PerfGate.Measurement.Sample

/-!
# Trials

A benchmark is a workload executed some times untimed and then at least once timed. Trials
run strictly one after another. The first execution that fails, timed or not, ends the
benchmark with its own fault: no sample of it is kept and nothing more is executed.
-/

set_option autoImplicit false

namespace PerfGate

/-- Executes a workload once, to its end, and gives the milliseconds it took. -/
abbrev Runner (m : Type → Type) := String → ExceptT Fault m Float

structure TrialPlan where
  iterations : Nat
  warmup : Nat
  iterations_pos : 0 < iterations

namespace TrialPlan

def of? (iterations warmup : Nat) : Except Fault TrialPlan :=
  if h : 0 < iterations then .ok ⟨iterations, warmup, h⟩
  else .error (.setting .noIterations)

section
variable {m : Type → Type} [Monad m]

def warm (runner : Runner m) (workload : String) : Nat → ExceptT Fault m Unit
  | 0 => pure ()
  | n + 1 => do
    let _ ← runner workload
    warm runner workload n

def timed (runner : Runner m) (workload implementation : String) (iteration : Nat) :
    Nat → ExceptT Fault m (List Sample)
  | 0 => pure []
  | n + 1 => do
    let duration ← runner workload
    let rest ← timed runner workload implementation (iteration + 1) n
    return ⟨workload, implementation, duration, iteration⟩ :: rest

def run (plan : TrialPlan) (runner : Runner m) (workload implementation : String) :
    ExceptT Fault m (List Sample) := do
  warm runner workload plan.warmup
  timed runner workload implementation 0 plan.iterations

end

end TrialPlan

end PerfGate
