import PerfGate.Verdict.Comparison

/-!
# Assessments

The comparisons of a run in order, and the names of the benchmarks that regressed. The run
passes exactly when no benchmark did. An assessment can be made of comparisons at hand or of
a batch of summaries; the first summary without a usable baseline entry ends the batch.
-/

set_option autoImplicit false

namespace PerfGate

structure Assessment where
  comparisons : List Comparison
  threshold : Float

namespace Assessment

def regressed (a : Assessment) : List String :=
  (a.comparisons.filter (·.isRegression)).map (·.name)

def exitCode (a : Assessment) : Nat :=
  if a.regressed.isEmpty then 0 else 1

def rule : String :=
  String.ofList (List.replicate 60 '=')

def report (a : Assessment) : String :=
  rule ++ "\nSUMMARY\n" ++ rule ++ "\n" ++
    match a.regressed with
    | [] => "\n✅ All benchmarks passed. No regressions detected.\n"
    | names =>
      "\n❌ " ++ toString names.length ++ " REGRESSION(S) DETECTED:\n"
        ++ String.join (names.map fun name => "  - " ++ name ++ "\n")
        ++ "\nFailing CI build due to performance regression.\n"

def compareAll (baseline : Baseline) (threshold : Float) :
    List Summary → Except Fault (List Comparison)
  | [] => .ok []
  | summary :: rest => do
    let entry ← baseline.entry summary.name
    let comparisons ← compareAll baseline threshold rest
    return compareWith entry summary threshold :: comparisons

def ofSummaries (baseline : Baseline) (summaries : List Summary) (threshold : Float) :
    Except Fault Assessment :=
  (compareAll baseline threshold summaries).map (⟨·, threshold⟩)

end Assessment

end PerfGate
