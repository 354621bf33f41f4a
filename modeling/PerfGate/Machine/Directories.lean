import PerfGate.Fault
import PerfGate.Path

/-!
# Making directories

A directory is made after those that are missing above it. One that is there already does as
well. Only a missing parent is a reason to go up; any other fault is final.
-/

set_option autoImplicit false

namespace PerfGate

/-- How a single directory is made and recognised. -/
structure Directories (m : Type → Type) where
  make : String → m (Except FileFault Unit)
  isDirectory : String → m Bool

namespace Directories

variable {m : Type → Type} [Monad m]

def makeOrKeep (d : Directories m) (path : String) : m (Except FileFault Unit) := do
  match ← d.make path with
  | .ok _ => return .ok ()
  | .error cause =>
    let present ← d.isDirectory path
    return if present then .ok () else .error cause

/-- Goes up at most so many times. -/
def makeBelow (d : Directories m) : Nat → String → m (Except FileFault Unit)
  | 0, _ => return .ok ()
  | depth + 1, path => do
    if path.isEmpty then return .ok ()
    match ← d.makeOrKeep path with
    | .error .notFound =>
      match Path.parent? path with
      | none => return .error (.other "failed to create whole tree")
      | some parent =>
        match ← d.makeBelow depth parent with
        | .error cause => return .error cause
        | .ok _ => d.makeOrKeep path
    | answer => return answer

/-- A path has at most as many places above it as it has characters. The empty path is the
directory one is in. -/
def makeAll (d : Directories m) (path : String) : m (Except FileFault Unit) :=
  d.makeBelow (path.length + 1) path

end Directories

end PerfGate
