import PerfGate.Commands.Report
import PerfGate.Commands.Run

/-!
# The program

Arguments are read first, then the configuration, then the command runs. A command that
finds a regression ends with status one, as does one that fails; arguments that name no
command end with status two.
-/

set_option autoImplicit false

namespace PerfGate

open CommandLine (Invocation UsageError)

def CommandLine.Command.execute (c : Config) : CommandLine.Command → Attempt Nat
  | .check options => (CheckSettings.of c options).check
  | .run options => (RunSettings.of c options).execute
  | .report options => (ReportSettings.of c options).execute

def CommandLine.Invocation.execute (i : Invocation) : Attempt Nat := do
  let c ← Job.within .fault (Config.load i.config)
  i.command.execute c

inductive Ending where
  | usage (cause : UsageError)
  | finished (status : Nat)
  | failed (failure : Failure)

namespace Ending

def ofResult : Except Failure Nat → Ending
  | .ok status => .finished status
  | .error failure => .failed failure

def status : Ending → Nat
  | .usage .help => 0
  | .usage .version => 0
  | .usage _ => 2
  | .finished status => status
  | .failed _ => 1

/-- What is told besides the notices. -/
def remark : Ending → String
  | .usage .version => CommandLine.programVersion ++ "\n"
  | _ => ""

def complaint : Ending → String
  | .failed failure => failure.text ++ "\n"
  | _ => ""

end Ending

def program (arguments : List String) : Dialogue Ending :=
  match CommandLine.parse arguments with
  | .error cause => pure (.usage cause)
  | .ok invocation => do
    return Ending.ofResult (← invocation.execute.run)

end PerfGate
