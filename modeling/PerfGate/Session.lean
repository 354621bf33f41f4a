import PerfGate.Measurement.Simulation
import PerfGate.Verdict.Assessment

/-!
# Sessions

A session keeps a baseline, a threshold, the summaries measured so far and the comparisons
made so far. Each step either does its work or is refused, and a refused step leaves the
session as it was. A comparison keeps the class it was given under the threshold of its time.
-/

set_option autoImplicit false

namespace PerfGate

structure Session where
  baseline : Baseline
  threshold : Float
  measured : List Summary
  compared : List Comparison

namespace Session

def start : Session :=
  ⟨Baseline.empty, defaultThreshold, [], []⟩

inductive Step where
  | loadBaseline (text : String)
  | setThreshold (value : Float)
  | measure (name implementation : String) (durations : List Float)
  | simulate (name : String) (iterations : Nat) (words : List UInt64)
  | compareLast
  | reset

inductive Refusal where
  | document (cause : Json.Fault)
  | setting (cause : SettingFault)
  | fault (cause : Fault)

inductive Answer where
  | benchmarks (names : List String)
  | threshold (value : Float)
  | summary (s : Summary)
  | comparison (c : Comparison)
  | nothing

def keep (session : Session) (s : Summary) : Answer × Session :=
  (.summary s, { session with measured := session.measured ++ [s] })

def simulated (name : String) (iterations : Nat) (words : List UInt64) :
    Except Fault Summary :=
  let (samples, _) := (Simulation.samples Simulation.Words.next name iterations).run ⟨words, 0⟩
  Summary.ofSamples name samples

def attempt (session : Session) : Step → Except Refusal (Answer × Session)
  | .loadBaseline text =>
    match Baseline.parse text with
    | .error cause => .error (.document cause)
    | .ok baseline =>
      .ok (.benchmarks (baseline.benchmarks.map (·.1)), { session with baseline := baseline })
  | .setThreshold value =>
    match validThreshold value with
    | .error cause => .error (.setting cause)
    | .ok _ => .ok (.threshold value, { session with threshold := value })
  | .measure name implementation durations =>
    match Summary.ofDurations name implementation durations with
    | .error cause => .error (.fault cause)
    | .ok s => .ok (session.keep s)
  | .simulate name iterations words =>
    match simulated name iterations words with
    | .error cause => .error (.fault cause)
    | .ok s => .ok (session.keep s)
  | .compareLast =>
    match session.measured.getLast? with
    | none => .ok (.nothing, session)
    | some current =>
      match session.baseline.entry current.name with
      | .error cause => .error (.fault cause)
      | .ok entry =>
        let c := compareWith entry current session.threshold
        .ok (.comparison c, { session with compared := session.compared ++ [c] })
  | .reset => .ok (.nothing, { session with measured := [], compared := [] })

def step (session : Session) (s : Step) : Except Refusal Answer × Session :=
  match session.attempt s with
  | .error refusal => (.error refusal, session)
  | .ok (answer, next) => (.ok answer, next)

def run (session : Session) (steps : List Step) : Session :=
  steps.foldl (fun session s => (session.step s).2) session

def verdict (session : Session) : Assessment :=
  ⟨session.compared, session.threshold⟩

def assess (session : Session) : Except Fault Assessment :=
  Assessment.ofSummaries session.baseline session.measured session.threshold

end Session

end PerfGate
