import PerfGate.Fault
import PerfGate.Measurement.Sample
import PerfGate.Measurement.Statistics

/-!
# Summaries of samples

The durations of one benchmark are reduced to their count, mean, median, standard deviation,
extremes and 95th percentile. Nothing is filtered out. Rounding can carry the mean of equal
durations past them, so the mean is brought back between the extremes before the deviation
is taken from it.
-/

set_option autoImplicit false

namespace PerfGate

structure Summary where
  name : String
  implementation : String
  n : Nat
  mean : Float
  median : Float
  /-- With the divisor `n - 1`; zero for a single sample. -/
  deviation : Float
  least : Float
  greatest : Float
  p95 : Float

namespace Summary

def ofDurations (name implementation : String) (durations : List Float) :
    Except Fault Summary :=
  match Statistics.ascending durations with
  | [] => .error (.noSamples name)
  | least :: rest =>
    let sorted := least :: rest
    let greatest := sorted.getLastD least
    match Statistics.clamp? (Statistics.mean durations) least greatest with
    | none => .error .unorderedSamples
    | some center =>
      .ok {
        name := name
        implementation := implementation
        n := durations.length
        mean := center
        median := Statistics.median sorted
        deviation := Statistics.deviation durations center
        least := least
        greatest := greatest
        p95 := Statistics.percentile sorted Statistics.p95Fraction }

/-- Name and implementation are those of the first sample; `workload` only names the
benchmark when there is none. -/
def ofSamples (workload : String) (samples : List Sample) : Except Fault Summary :=
  match samples with
  | [] => .error (.noSamples workload)
  | first :: _ => ofDurations first.name first.implementation (samples.map (·.duration))

end Summary

end PerfGate
