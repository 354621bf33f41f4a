import PerfGate.Measurement.Sample

/-!
# Simulated samples

Known benchmarks replay a table of recorded timings, from its start again when more are asked
for than it holds. Any other benchmark draws its durations evenly from 1 up to 10
milliseconds out of a source of 64-bit words: the upper 52 bits of a word are the fraction of
a number from 1 up to 2, which is stretched to the range. A draw that reached the end of the
range would be repeated.
-/

set_option autoImplicit false

namespace PerfGate.Simulation

def label : String := "simulated"

def table? (name : String) : Option (List Float) :=
  if name = "single_row_update" then
    some [2.1, 2.0, 2.2, 2.1, 2.0, 2.3, 2.1, 2.0, 2.2, 2.1]
  else if name = "cascade_10_entities" then
    some [45.9, 46.1, 45.8, 46.2, 45.7, 46.0, 45.9, 46.3, 45.8, 46.1]
  else if name = "bulk_1k_rows" then
    some [10000.0, 10500.0, 9800.0, 10200.0, 10100.0, 9900.0, 10300.0, 10100.0, 10200.0,
      10000.0]
  else none

/-- The number from 1 up to 2 with the upper bits of the word as its fraction. -/
def unitInterval (word : UInt64) : Float :=
  Float.ofBits ((word >>> 12) ||| 0x3ff0000000000000)

def stretched (word : UInt64) : Float :=
  (unitInterval word - 1.0) * 9.0 + 1.0

section
variable {m : Type → Type} [Monad m]

/-- Draws until a number below 10 comes up, at most `attempts` times. -/
def draw (word : m UInt64) : Nat → m Float
  | 0 => pure 1.0
  | attempts + 1 => do
    let x := stretched (← word)
    if x < 10.0 then pure x else draw word attempts

def draws (word : m UInt64) : Nat → m (List Float)
  | 0 => pure []
  | n + 1 => do
    let x ← draw word 64
    let rest ← draws word n
    return x :: rest

def cycled (table : List Float) (n : Nat) : List Float :=
  (List.range n).map fun i => table.getD (i % table.length) 0.0

def durations (word : m UInt64) (name : String) (iterations : Nat) : m (List Float) :=
  match table? name with
  | some table => pure (cycled table iterations)
  | none => draws word iterations

def labelled (name : String) (durations : List Float) : List Sample :=
  durations.mapIdx fun i x => ⟨name, label, x, i⟩

def samples (word : m UInt64) (name : String) (iterations : Nat) : m (List Sample) := do
  return labelled name (← durations word name iterations)

end

/-- A list of words drawn one after another and from its start again; no words are zeros. -/
structure Words where
  cycle : List UInt64
  used : Nat

def Words.next : StateM Words UInt64 := fun source =>
  (source.cycle.getD (source.used % source.cycle.length) 0, { source with used := source.used + 1 })

end PerfGate.Simulation
