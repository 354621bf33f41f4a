import PerfGate.Fault

/-!
# Failures of commands

A command fails with a fault, or with a fault in the context of what it was doing, or because
none of its workloads completed. The text of a failure starts with the outermost message and
lists the causes below it, with numbers if there is more than one.
-/

set_option autoImplicit false

namespace PerfGate

inductive Failure where
  | fault (cause : Fault)
  | benchmark (name : String) (cause : Fault)
  | results (cause : Fault)
  | comparisons (cause : Fault)
  | nothingCompleted

namespace Failure

/-- The message of a fault and that of its own cause. -/
def messages (cause : Fault) : List String :=
  cause.message :: cause.causeMessage?.toList

def chain : Failure → List String
  | .fault cause => messages cause
  | .benchmark name cause => ("benchmark " ++ name ++ " failed") :: messages cause
  | .results cause => "failed to load benchmark results" :: messages cause
  | .comparisons cause => "failed to load comparisons" :: messages cause
  | .nothingCompleted => ["No benchmarks completed"]

def fault? : Failure → Option Fault
  | .fault cause => some cause
  | .benchmark _ cause => some cause
  | .results cause => some cause
  | .comparisons cause => some cause
  | .nothingCompleted => none

/-- Lines after the first stand below its text. -/
def hung (margin indent message : String) : String :=
  margin ++ String.ofList (message.toList.flatMap fun c =>
    if c = '\n' then c :: indent.toList else [c])

def numberedCause (message : String) (number : Nat) : String :=
  let digits := toString number
  let margin := String.ofList (List.replicate (5 - digits.length) ' ') ++ digits ++ ": "
  "\n" ++ hung margin "       " message

def causesText : List String → String
  | [] => ""
  | [cause] => "\n\nCaused by:\n" ++ hung "    " "    " cause
  | causes => "\n\nCaused by:" ++ String.join (causes.zipIdx.map fun (m, i) => numberedCause m i)

def text (f : Failure) : String :=
  match f.chain with
  | [] => ""
  | message :: causes => "Error: " ++ message ++ causesText causes

end Failure

end PerfGate
