import PerfGate.Calendar
import PerfGate.Json.Printer
import PerfGate.Measurement.Summary

/-!
# Results files

Every check leaves a JSON file with the figures of each benchmark in the order of the run.
The file is named for the second in which the run started, which is taken from its fractional
timestamp.
-/

set_option autoImplicit false

namespace PerfGate

structure RecordedResult where
  name : String
  mean : Float
  deviation : Float
  p95 : Float
  n : Nat

structure ResultsFile where
  /-- Seconds since the start of 1970, with a fraction. -/
  timestamp : Float
  date : String
  results : List RecordedResult

namespace RecordedResult

def ofSummary (s : Summary) : RecordedResult :=
  ⟨s.name, s.mean, s.deviation, s.p95, s.n⟩

def value (r : RecordedResult) : Json.Value :=
  .object [
    ("name", .text r.name),
    ("mean_ms", .number (.real r.mean)),
    ("stddev_ms", .number (.real r.deviation)),
    ("p95_ms", .number (.real r.p95)),
    ("n", .number (.integer r.n))]

def slots (r : Json.Rounding) : Json.Slots (String × Float × Float × Float × Nat × Unit) :=
  .field (Json.required "name" Json.text) none <|
  .field (Json.required "mean_ms" (Json.realBy r)) none <|
  .field (Json.required "stddev_ms" (Json.realBy r)) none <|
  .field (Json.required "p95_ms" (Json.realBy r)) none <|
  .field (Json.required "n" Json.count) none .done

def decoder (r : Json.Rounding) : Json.Decoder RecordedResult := fun node =>
  (Json.record "RecordedResult" (slots r) node).map fun (name, mean, deviation, p95, n, _) =>
    ⟨name, mean, deviation, p95, n⟩

end RecordedResult

namespace ResultsFile

def new (started : Instant) (summaries : List Summary) : ResultsFile where
  timestamp := Float.ofInt started.micros / 1000000.0
  date := started.dateTimeText
  results := summaries.map .ofSummary

/-- The whole part, toward zero. -/
def wholeSeconds (x : Float) : Int :=
  let n : Int := x.abs.toUInt64.toNat
  if x < 0.0 then -n else n

def fileName (file : ResultsFile) : String :=
  "results-" ++ toString (wholeSeconds file.timestamp) ++ ".json"

def value (file : ResultsFile) : Json.Value :=
  .object [
    ("timestamp", .number (.real file.timestamp)),
    ("date", .text file.date),
    ("results", .array (file.results.map RecordedResult.value))]

def json (file : ResultsFile) : String :=
  file.value.pretty

def slots (r : Json.Rounding) : Json.Slots (Float × String × List RecordedResult × Unit) :=
  .field (Json.required "timestamp" (Json.realBy r)) none <|
  .field (Json.required "date" Json.text) none <|
  .field (Json.required "results" (Json.list (RecordedResult.decoder r))) none .done

/-- Reads a results file, with the rounding that is asked for. -/
def parse (r : Json.Rounding) (text : String) : Except Json.Fault ResultsFile :=
  Json.decode
    (fun node => (Json.record "ResultsFile" (slots r) node).map
      fun (timestamp, date, results, _) => ⟨timestamp, date, results⟩)
    text

end ResultsFile

end PerfGate
