import PerfGate.Commands.Program
import PerfGate.Machine.Directories
import Std.Time.DateTime.Timestamp

/-!
# The command line

Performs the dialogue of the program on the machine at hand. Programs cannot be started from
here, so a workload that is to be executed fails at its start.
-/

set_option autoImplicit false

namespace PerfGate.Host

def faultOf : IO.Error → FileFault
  | .noFileOrDirectory .. => .notFound
  | .alreadyExists .. => .alreadyExists
  | .permissionDenied .. => .permissionDenied
  | .inappropriateType _ 20 _ => .notDirectory
  | .inappropriateType _ 21 _ => .isDirectory
  | .userError _ => .notText
  | e => .other (toString e)

def attempt {α : Type} (action : IO α) : IO (Except FileFault α) := do
  match ← action.toBaseIO with
  | .ok a => return .ok a
  | .error e => return .error (faultOf e)

/-- A path that can be opened, or that is kept from being opened, is there. -/
def present (path : String) : IO Bool := do
  match ← attempt (IO.FS.Handle.mk path IO.FS.Mode.read) with
  | .error .notFound => return false
  | .error .notDirectory => return false
  | _ => return true

def isDirectory (path : String) : IO Bool := do
  match ← attempt (IO.FS.readFile path) with
  | .error .isDirectory => return true
  | _ => return false

def directories : Directories IO where
  make path := attempt (IO.FS.createDir path)
  isDirectory := isDirectory

def now : IO Instant := do
  let t ← Std.Time.Timestamp.now
  return ⟨t.toSecondsSinceUnixEpoch.val, t.val.nano.val.toNat⟩

def randomWord : IO UInt64 := do
  let bytes ← IO.getRandomBytes 8
  return bytes.toList.foldl (fun n byte => n * 256 + byte.toUInt64) 0

def answer : (r : Request) → IO r.Answer
  | .read path => attempt (IO.FS.readFile path)
  | .present path => present path
  | .makeDirectory path => directories.makeAll path
  | .write path text => attempt (IO.FS.writeFile path text)
  | .execute _ _ => return .error (.other "programs cannot be started")
  | .now => now
  | .word => randomWord
  | .say notice => IO.print notice.text

end PerfGate.Host

def main (arguments : List String) : IO UInt32 := do
  let ending ← (PerfGate.program arguments).perform PerfGate.Host.answer
  IO.print ending.remark
  IO.eprint ending.complaint
  return UInt32.ofNat ending.status
