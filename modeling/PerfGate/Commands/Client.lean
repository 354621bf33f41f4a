import PerfGate.Machine.Dialogue
import PerfGate.Measurement.Trial
import PerfGate.Text.Blank

/-!
# The database client

A workload file is executed by handing it to a client program, quietly and without questions.
An execution counts only if the client ends with status zero.
-/

set_option autoImplicit false

namespace PerfGate

structure Client where
  program : String
  database : Option String
  deriving DecidableEq

namespace Client

def databaseArguments : Option String → List String
  | none => []
  | some database => ["-d", database]

def arguments (client : Client) (workload : String) : List String :=
  databaseArguments client.database ++ ["-f", workload, "-q"]

def outcome (client : Client) (workload : String) : Except FileFault Execution →
    Except Fault Float
  | .error cause => .error (.launch client.program cause)
  | .ok execution =>
    if execution.exit = .status 0 then .ok execution.milliseconds
    else .error (.workload workload execution.exit.text (Text.trimmed execution.complaint))

def runner (client : Client) : Runner Dialogue := fun workload => ExceptT.mk do
  let answer ← Dialogue.request (.execute client.program (client.arguments workload))
  return client.outcome workload answer

end Client

end PerfGate
