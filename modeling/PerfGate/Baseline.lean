import PerfGate.Fault

/-!
# Baselines

A baseline is a dated set of reference figures, one entry for each benchmark, together with
the machine they were recorded on. It is written as a JSON document. The machine is described
by its processor and by any further members, which are kept as they are.

An entry can be compared with only if its mean is a positive number, since every comparison
divides by it.
-/

set_option autoImplicit false

namespace PerfGate

structure Hardware where
  cpu : String
  /-- Members other than the processor, in ascending order of their keys. -/
  extra : List (String × Json.Value)

structure BaselineEntry where
  mean : Float
  deviation : Float
  p95 : Option Float
  n : Option Nat

structure Baseline where
  version : String
  date : String
  hardware : Hardware
  /-- In ascending order of the names. -/
  benchmarks : List (String × BaselineEntry)

namespace BaselineEntry

def slots : Json.Slots (Float × Float × Option Float × Option Nat × Unit) :=
  .field (Json.required "mean_ms" Json.real) none <|
  .field (Json.required "stddev_ms" Json.real) none <|
  .field (Json.omissible "p95_ms" Json.real) none <|
  .field (Json.omissible "n" Json.count) none .done

def decoder : Json.Decoder BaselineEntry := fun node =>
  (Json.record "BaselineEntry" slots node).map fun (mean, deviation, p95, n, _) =>
    ⟨mean, deviation, p95, n⟩

end BaselineEntry

namespace Hardware

/-- Brackets that may still be opened inside the members of the hardware object, which stands
two brackets deep: of 128 the last may not be used. -/
def extraDepth : Nat := 126

structure Draft where
  cpu : Option String
  extra : List (String × Json.Value)

def Draft.put (draft : Draft) (key : String) (node : Json.Node) : Except Json.Fault Draft :=
  if key = "cpu" then
    match draft.cpu with
    | some _ => .error (.mismatch (.duplicate key))
    | none => (Json.text node).map fun cpu => { draft with cpu := some cpu }
  else
    (Json.kept (node.value .quick extraDepth)).map fun v =>
      { draft with extra := Json.insertMember key v draft.extra }

def Draft.finish (draft : Draft) : Except Json.Fault Hardware :=
  match draft.cpu with
  | none => .error (.mismatch (.missing "cpu"))
  | some cpu => .ok ⟨cpu, draft.extra⟩

/-- The members are open-ended, so only an object will do. -/
def decoder : Json.Decoder Hardware
  | .object members =>
    match Json.foldMembers Draft.put members ⟨none, []⟩ with
    | .error fault => .error fault
    | .ok draft => draft.finish
  | node => node.refuse "struct HardwareInfo"

end Hardware

namespace Baseline

def empty : Baseline :=
  ⟨"", "", ⟨"", []⟩, []⟩

def slots : Json.Slots (String × String × Hardware × List (String × BaselineEntry) × Unit) :=
  .field (Json.required "version" Json.text) none <|
  .field (Json.required "date" Json.text) none <|
  .field (Json.required "hardware" Hardware.decoder) none <|
  .field (Json.required "benchmarks" (Json.map BaselineEntry.decoder)) none .done

def decoder : Json.Decoder Baseline := fun node =>
  (Json.record "Baseline" slots node).map fun (version, date, hardware, benchmarks, _) =>
    ⟨version, date, hardware, benchmarks⟩

def parse (text : String) : Except Json.Fault Baseline :=
  Json.decode decoder text

def entry? (baseline : Baseline) (name : String) : Option BaselineEntry :=
  baseline.benchmarks.lookup name

def entry (baseline : Baseline) (name : String) : Except Fault BaselineEntry :=
  match baseline.entry? name with
  | none => .error (.noBaseline name)
  | some entry =>
    if entry.mean.isFinite ∧ 0.0 < entry.mean then .ok entry
    else .error (.unusableBaseline name entry.mean)

end Baseline

end PerfGate
