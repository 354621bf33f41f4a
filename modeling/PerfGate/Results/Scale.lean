import PerfGate.Fault

/-!
# Data scales

The size of the data a workload ran on: small, medium or large, in that order.
-/

set_option autoImplicit false

namespace PerfGate

inductive DataScale where
  | small
  | medium
  | large
  deriving DecidableEq, Repr

namespace DataScale

def all : List DataScale := [.small, .medium, .large]

def rank : DataScale → Nat
  | .small => 1
  | .medium => 2
  | .large => 3

def text : DataScale → String
  | .small => "small"
  | .medium => "medium"
  | .large => "large"

def ofText? (s : String) : Option DataScale :=
  all.find? (·.text = s)

def parse (s : String) : Except Fault DataScale :=
  match ofText? s with
  | some scale => .ok scale
  | none => .error (.unknownScale s)

end DataScale

end PerfGate
