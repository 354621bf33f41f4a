import PerfGate.Fault

/-!
# Result rows and comparison rows

A result row is one timing exported from the table of results. A comparison row sets the
time of an incremental refresh beside that of the full refresh it saves.
-/

set_option autoImplicit false

namespace PerfGate

structure UndefinedWord where
  word : UInt64
  undefined : (Float.ofBits word).isNaN = true

namespace UndefinedWord

def quiet : UndefinedWord := ⟨0x7ff8000000000000, by decide⟩

def ofWord (word : UInt64) : UndefinedWord :=
  if h : (Float.ofBits word).isNaN = true then ⟨word, h⟩ else quiet

instance : Coe UInt64 UndefinedWord := ⟨ofWord⟩

end UndefinedWord

structure ResultRow where
  scenario : String
  testName : String
  scale : String
  operation : String
  rowsAffected : Int
  cascadeDepth : Option Int
  time : Float
  notes : Option String
  /-- The word of a time that is not a number. Such a time has a place in the order of words
  only; for any other time this says nothing. -/
  timeWord : UndefinedWord := .quiet

structure ComparisonRow where
  scenario : String
  testName : String
  scale : String
  operation : String
  rowsAffected : Int
  /-- Time of the full refresh. -/
  baseline : Float
  incremental : Float
  /-- Full time over incremental time; above one the incremental refresh is faster. -/
  ratio : Float
  saved : Float

namespace ResultRow

/-- Zero when no rows were affected. -/
def timePerRow (row : ResultRow) : Float :=
  if row.rowsAffected = 0 then 0.0 else row.time / Float.ofInt row.rowsAffected

def slots : Json.Slots
    (String × String × String × String × Int × Option Int × Float × Option String × Unit) :=
  .field (Json.required "scenario" Json.text) none <|
  .field (Json.required "test_name" Json.text) none <|
  .field (Json.required "data_scale" Json.text) none <|
  .field (Json.required "operation_type" Json.text) none <|
  .field (Json.required "rows_affected" Json.integer) none <|
  .field (Json.omissible "cascade_depth" Json.integer) none <|
  .field (Json.required "execution_time_ms" Json.real) none <|
  .field (Json.omissible "notes" Json.text) none .done

def decoder : Json.Decoder ResultRow := fun node =>
  (Json.record "ResultRow" slots node).map
    fun (scenario, testName, scale, operation, rowsAffected, cascadeDepth, time, notes, _) =>
      { scenario, testName, scale, operation, rowsAffected, cascadeDepth, time, notes }

def parseList (text : String) : Except Json.Fault (List ResultRow) :=
  Json.decode (Json.list decoder) text

end ResultRow

namespace ComparisonRow

def slots : Json.Slots
    (String × String × String × String × Int × Float × Float × Float × Float × Unit) :=
  .field (Json.required "scenario" Json.text) none <|
  .field (Json.required "test_name" Json.text) none <|
  .field (Json.required "data_scale" Json.text) none <|
  .field (Json.required "operation_type" Json.text) none <|
  .field (Json.required "rows_affected" Json.integer) none <|
  .field (Json.required "baseline_ms" Json.real) none <|
  .field (Json.required "incremental_ms" Json.real) none <|
  .field (Json.required "improvement_ratio" Json.real) none <|
  .field (Json.required "time_saved_ms" Json.real) none .done

def decoder : Json.Decoder ComparisonRow := fun node =>
  (Json.record "ComparisonRow" slots node).map
    fun (scenario, testName, scale, operation, rowsAffected, baseline, incremental, ratio,
      saved, _) =>
      ⟨scenario, testName, scale, operation, rowsAffected, baseline, incremental, ratio, saved⟩

def parseList (text : String) : Except Json.Fault (List ComparisonRow) :=
  Json.decode (Json.list decoder) text

end ComparisonRow

end PerfGate
