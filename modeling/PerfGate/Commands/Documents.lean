import PerfGate.Baseline
import PerfGate.Config
import PerfGate.Machine.Dialogue
import PerfGate.Path

/-!
# Documents on the machine

Documents are read whole and decoded, or written whole after the directory for them has been
made. Each fault names the path at which it arose.
-/

set_option autoImplicit false

namespace PerfGate

abbrev Job := ExceptT Fault Dialogue

def say (notice : Notice) : Dialogue Unit :=
  Dialogue.request (.say notice)

namespace Document

def decoded {α : Type} (path : String) (decode : String → Except Json.Fault α) :
    Except FileFault String → Except Fault α
  | .error cause => .error (.file path cause)
  | .ok text =>
    match decode text with
    | .error cause => .error (.document path cause)
    | .ok a => .ok a

def load {α : Type} (path : String) (decode : String → Except Json.Fault α) : Job α :=
  ExceptT.mk do
    return decoded path decode (← Dialogue.request (.read path))

/-- A baseline that is missing has a fault of its own. -/
def loadBaseline (path : String) : Job Baseline := ExceptT.mk do
  match ← Dialogue.request (.read path) with
  | .error .notFound => return .error (.baselineNotFound path)
  | answer => return decoded path Baseline.parse answer

def named (path : String) : Except FileFault Unit → Except Fault Unit
  | .error cause => .error (.file path cause)
  | .ok _ => .ok ()

def makeDirectory (path : String) : Job Unit := ExceptT.mk do
  return named path (← Dialogue.request (.makeDirectory path))

def write (path text : String) : Job Unit := ExceptT.mk do
  return named path (← Dialogue.request (.write path text))

def save (path text : String) : Job Unit := do
  match Path.parent? path with
  | some "" => pure ()
  | some directory => makeDirectory directory
  | none => pure ()
  write path text

end Document

/-! ## Configuration -/

namespace Config

def defaultFile : String := "tvbench.toml"

def read (path : String) : Job Config := ExceptT.mk do
  match ← Dialogue.request (.read path) with
  | .error cause => return .error (.setting (.unreadable path cause))
  | .ok text => return (parse text).mapError .setting

/-- A file that is named has to be there; the default file is read if it is there. -/
def load : Option String → Job Config
  | some path => read path
  | none => do
    let present : Bool ← Dialogue.request (.present defaultFile)
    if present then read defaultFile else return {}

end Config

end PerfGate
