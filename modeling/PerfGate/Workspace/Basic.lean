import PerfGate.Machine.Dialogue
import PerfGate.Workspace.Utility.Starting

/-!
# Workspaces

A workspace is a machine that is a value: a process in a tree of files, a clock and words to
draw. The clock stands still and every program takes the same time. What is told goes to the
output of the process, as does what is written to a path that leads there. A command is
rehearsed by running it in a workspace.
-/

set_option autoImplicit false

namespace PerfGate

structure Workspace where
  process : Process
  instant : Instant
  /-- How long every program takes, in milliseconds. -/
  pace : Float
  words : List UInt64

namespace Workspace

/-! ## The tree of a machine -/

def systemLinks : List (Octets × Octets) := [
  ("bin", "usr/bin"), ("sbin", "usr/sbin"), ("lib", "usr/lib")]

def systemDirectories : List Octets := [
  "usr/bin", "usr/sbin", "usr/lib", "usr/local/bin", "usr/local/sbin", "dev/fd", "etc", "home",
  "proc", "root", "run", "tmp", "var", "work"]

def devices : List (Octets × Device) := [
  ("null", .null), ("zero", .zero), ("full", .full), ("tty", .terminal),
  ("stdin", .descriptor 0), ("stdout", .descriptor 1), ("stderr", .descriptor 2)]

def streamNumbers : List Nat := List.range 10

def systemTree : Tree :=
  let t := systemDirectories.foldl
    (fun t path => (t.plantDirectory Tree.root (Tree.segments path)).1) Tree.bare
  let t := systemLinks.foldl (fun t (name, target) => (t.add Tree.root name (.link target)).1) t
  let t := devices.foldl (fun t (name, d) => t.plantEntry Tree.root ["dev", name] (.device d)) t
  let t := streamNumbers.foldl
    (fun t n => t.plantEntry Tree.root ["dev", "fd", toString n] (.device (.descriptor n))) t
  Utility.provided.foldl
    (fun t (name, _) => t.plantEntry Tree.root ["usr", "bin", name] (.program name)) t

def environment : List (Octets × Octets) := [
  ("HOME", "/root"), ("PATH", Script.Lookup.defaultPath)]

/-- The streams that a process starts with: no input, and two channels. -/
def streams : Array Stream :=
  #[.device .null, .channel "", .channel ""]

/-- A workspace with the given files; a path that ends with a slash is a directory. -/
def ofFiles (files : List (String × String)) : Workspace :=
  let (tree, home) := systemTree.plantDirectory Tree.root ["work"]
  let tree := files.foldl
    (fun t (path, text) => t.plant home (Octets.encode path) (Octets.encode text)) tree
  { process :=
      { tree := tree
        streams := streams
        home := home
        descriptors := [(0, 0), (1, 1), (2, 2)]
        environment := environment
        ignored := []
        called := "" }
    instant := ⟨0, 0⟩
    pace := 1.0
    words := [] }

/-! ## Answers -/

def doing {α : Type} (w : Workspace) (d : Doing α) : α × Workspace :=
  let (a, process) := d.run w.process
  (a, { w with process := process })

def read (w : Workspace) (path : String) : Except FileFault String × Workspace :=
  match w.doing (Doing.readPath (Octets.encode path)) with
  | (.error cause, w) => (.error cause, w)
  | (.ok text, w) =>
    match Octets.decode? text with
    | some s => (.ok s, w)
    | none => (.error .notText, w)

def present (w : Workspace) (path : String) : Bool :=
  w.process.tree.present w.process.home (Octets.encode path)

def makeDirectory (w : Workspace) (path : String) : Except FileFault Unit × Workspace :=
  w.doing (Doing.change fun t home => t.makeDirectory home path)

def write (w : Workspace) (path text : String) : Except FileFault Unit × Workspace :=
  w.doing (Doing.writePath (Octets.encode path) (Octets.encode text) .replacing)

def holdsZero (s : String) : Bool := s.toList.contains '\x00'

/-- Starts a program as a process without input, and takes what it complains of. -/
def executing (program : Octets) (arguments : List Octets) :
    Doing (Except FileFault (Exit × Octets)) := fun p =>
  let (input, child) := p.openStream (.device .null)
  let (output, child) := child.openStream (.channel "")
  let (complaint, child) := child.openStream (.channel "")
  let child := { child with descriptors := [(0, input), (1, output), (2, complaint)] }
  let (result, child) := (Launch.byName Utility.launcher program (program :: arguments)).run child
  (result.map fun ending => (ending, child.held complaint), p.after child)

def execute (w : Workspace) (program : String) (arguments : List String) :
    Except FileFault Execution × Workspace :=
  if holdsZero program ∨ arguments.any holdsZero then (.error .zeroInArgument, w)
  else
    match w.doing (executing (Octets.encode program) (arguments.map Octets.encode)) with
    | (.error cause, w) => (.error cause, w)
    | (.ok (ending, complaint), w) => (.ok ⟨ending, Octets.decode complaint, w.pace⟩, w)

def draw (w : Workspace) : UInt64 × Workspace :=
  match w.words with
  | [] => (0, w)
  | word :: rest => (word, { w with words := rest })

def say (w : Workspace) (text : String) : Workspace :=
  (w.doing (Doing.say (Octets.encode text))).2

def answer : (r : Request) → Workspace → r.Answer × Workspace
  | .read path, w => w.read path
  | .present path, w => (w.present path, w)
  | .makeDirectory path, w => w.makeDirectory path
  | .write path text, w => w.write path text
  | .execute program arguments, w => w.execute program arguments
  | .now, w => (w.instant, w)
  | .word, w => w.draw
  | .say notice, w => ((), w.say notice.text)

def machine : Machine Workspace := ⟨answer⟩

/-! ## What can be seen -/

def output (w : Workspace) : String :=
  Octets.decode (w.process.held 1)

def files (w : Workspace) : List (String × String) :=
  (w.process.tree.files w.process.home).map fun (path, text) =>
    (Octets.decode path, Octets.decode text)

def lookup (w : Workspace) (path : String) : Option String :=
  w.files.lookup path

end Workspace

end PerfGate
