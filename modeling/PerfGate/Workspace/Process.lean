import PerfGate.Machine.Request
import PerfGate.Workspace.Tree

/-!
# Processes

A process sees a tree of files from a directory, has streams open under small numbers and
knows an environment. Streams are in a table that processes share, so that what one of them
writes moves the place at which another goes on. A process that starts another one goes on
with the tree and the streams that the other leaves, and with all else as it was.
-/

set_option autoImplicit false

namespace PerfGate

/-- What an open file is used for. -/
structure Access where
  reads : Bool
  writes : Bool
  appends : Bool
  deriving DecidableEq, Repr

inductive Stream where
  | device (d : Device)
  | node (node offset : Nat) (access : Access)
  /-- Gives what was written to it, in order. -/
  | channel (text : Octets)

structure Process where
  tree : Tree
  streams : Array Stream
  /-- The directory that paths start at. -/
  home : Nat
  /-- The streams under their numbers. -/
  descriptors : List (Nat × Nat)
  environment : List (Octets × Octets)
  /-- The signals that it never hears of. -/
  ignored : List Nat
  /-- The name by which its program was called. -/
  called : Octets

abbrev Doing := StateM Process

abbrev Program := List Octets → Doing Exit

abbrev Launcher := Octets → List Octets → Doing (Except FileFault Exit)

namespace Process

def stream? (p : Process) (number : Nat) : Option Nat :=
  p.descriptors.lookup number

def openStream (p : Process) (s : Stream) : Nat × Process :=
  (p.streams.size, { p with streams := p.streams.push s })

def without (p : Process) (number : Nat) : List (Nat × Nat) :=
  p.descriptors.filter (·.1 ≠ number)

def assign (p : Process) (number stream : Nat) : Process :=
  { p with descriptors := (number, stream) :: p.without number }

def close (p : Process) (number : Nat) : Process :=
  { p with descriptors := p.without number }

def after (p child : Process) : Process :=
  { p with tree := child.tree, streams := child.streams }

/-! ## Opening -/

/-- How a path is opened. -/
structure Opening where
  access : Access
  makes : Bool
  truncates : Bool
  exclusive : Bool

namespace Opening

def reading : Opening := ⟨⟨true, false, false⟩, false, false, false⟩

def replacing : Opening := ⟨⟨false, true, false⟩, true, true, false⟩

def appending : Opening := ⟨⟨false, true, true⟩, true, false, false⟩

def both : Opening := ⟨⟨true, true, false⟩, true, false, false⟩

def making : Opening := ⟨⟨false, true, false⟩, true, false, true⟩

def keeping : Opening := ⟨⟨false, true, false⟩, false, false, false⟩

end Opening

/-- The node behind a path, made if the opening says so. -/
def reach (p : Process) (path : Octets) (o : Opening) : Except FileFault (Process × Nat) := do
  if o.exclusive ∧ p.tree.present p.home path then .error .alreadyExists
  else if o.makes then
    let (tree, node) ← p.tree.openForWriting p.home path
    return ({ p with tree := tree }, node)
  else
    let node ← p.tree.find p.home path
    if o.access.writes ∧ p.tree.isDirectory node then .error .isDirectory
    else return (p, node)

def cleared (p : Process) (node : Nat) (o : Opening) : Process :=
  if o.truncates then { p with tree := p.tree.setText node "" } else p

/-- The stream for a node. What is open under a number is opened again. -/
def openNode (p : Process) (node : Nat) (o : Opening) : Except FileFault (Nat × Process) :=
  match p.tree.entry node with
  | .device .terminal => .error .noDevice
  | .device (.descriptor number) =>
    match p.stream? number with
    | none => .error .notFound
    | some stream =>
      match p.streams[stream]? with
      | some (.node node _ _) => .ok ((p.cleared node o).openStream (.node node 0 o.access))
      | _ => .ok (stream, p)
  | .device d => .ok (p.openStream (.device d))
  | _ => .ok ((p.cleared node o).openStream (.node node 0 o.access))

def openPath (p : Process) (path : Octets) (o : Opening) : Except FileFault (Nat × Process) := do
  let (p, node) ← p.reach path o
  p.openNode node o

/-! ## Writing -/

def overwritten (old : Octets) (offset : Nat) (text : Octets) : Octets :=
  let cs := old.toList
  let gap := List.replicate (offset - cs.length) '\x00'
  String.ofList (cs.take offset ++ gap ++ text.toList ++ cs.drop (offset + text.length))

def writeNode (p : Process) (stream node offset : Nat) (access : Access) (text : Octets) :
    Process :=
  let old := p.tree.textOf node
  let offset := if access.appends then old.length else offset
  let new := if offset = old.length then old ++ text else overwritten old offset text
  { p with
    tree := p.tree.setText node new
    streams := p.streams.setIfInBounds stream (.node node (offset + text.length) access) }

def writeStream (p : Process) (stream : Nat) (text : Octets) : Except FileFault Process :=
  match p.streams[stream]? with
  | none => .error .badDescriptor
  | some (.device .full) => .error .noSpace
  | some (.device _) => .ok p
  | some (.channel old) =>
    .ok { p with streams := p.streams.setIfInBounds stream (.channel (old ++ text)) }
  | some (.node node offset access) =>
    if access.writes then .ok (p.writeNode stream node offset access text)
    else .error .badDescriptor

def write (p : Process) (number : Nat) (text : Octets) : Except FileFault Process :=
  match p.stream? number with
  | none => .error .badDescriptor
  | some stream => if text.isEmpty then .ok p else p.writeStream stream text

/-! ## Reading -/

/-- How much is read at once. -/
inductive Amount where
  | all
  | characters (count : Nat)
  /-- Up to the end of the line and with it. -/
  | line

def front (amount : Amount) (text : Octets) : Octets × Octets :=
  match amount with
  | .all => (text, "")
  | .characters n =>
    let cs := text.toList
    (String.ofList (cs.take n), String.ofList (cs.drop n))
  | .line =>
    let cs := text.toList
    let n := (cs.takeWhile (· ≠ '\n')).length + 1
    (String.ofList (cs.take n), String.ofList (cs.drop n))

def Amount.zeros : Amount → Octets
  | .characters n => String.ofList (List.replicate n '\x00')
  | _ => ""

def readStream (p : Process) (stream : Nat) (amount : Amount) :
    Except FileFault (Octets × Process) :=
  match p.streams[stream]? with
  | none => .error .badDescriptor
  | some (.device .null) => .ok ("", p)
  | some (.device _) => .ok (amount.zeros, p)
  | some (.channel text) =>
    let (taken, left) := front amount text
    .ok (taken, { p with streams := p.streams.setIfInBounds stream (.channel left) })
  | some (.node node offset access) =>
    if ¬ access.reads then .error .badDescriptor
    else if p.tree.isDirectory node then .error .isDirectory
    else
      let (taken, _) := front amount (String.ofList ((p.tree.textOf node).toList.drop offset))
      .ok (taken, { p with
        streams :=
          p.streams.setIfInBounds stream (.node node (offset + taken.length) access) })

def read (p : Process) (number : Nat) (amount : Amount) :
    Except FileFault (Octets × Process) :=
  match p.stream? number with
  | none => .error .badDescriptor
  | some stream => p.readStream stream amount

def held (p : Process) (stream : Nat) : Octets :=
  match p.streams[stream]? with
  | some (.channel text) => text
  | _ => ""

end Process

/-! ## What programs do -/

namespace Doing

def write (number : Nat) (text : Octets) : Doing (Except FileFault Unit) := fun p =>
  match p.write number text with
  | .error cause => (.error cause, p)
  | .ok p => (.ok (), p)

def say (text : Octets) : Doing Unit := do
  discard (write 1 text)

def complain (text : Octets) : Doing Unit := do
  discard (write 2 text)

def read (number : Nat) (amount : Process.Amount) : Doing (Except FileFault Octets) := fun p =>
  match p.read number amount with
  | .error cause => (.error cause, p)
  | .ok (text, p) => (.ok text, p)

def readPath (path : Octets) : Doing (Except FileFault Octets) := fun p =>
  match p.openPath path .reading with
  | .error cause => (.error cause, p)
  | .ok (stream, p) =>
    match p.readStream stream .all with
    | .error cause => (.error cause, p)
    | .ok (text, p) => (.ok text, p)

def writePath (path text : Octets) (o : Process.Opening) : Doing (Except FileFault Unit) :=
  fun p =>
    match p.openPath path o with
    | .error cause => (.error cause, p)
    | .ok (stream, p) =>
      match p.writeStream stream text with
      | .error cause => (.error cause, p)
      | .ok p => (.ok (), p)

/-- Changes the tree if the change is possible. -/
def change (f : Tree → Nat → Except FileFault Tree) : Doing (Except FileFault Unit) := fun p =>
  match f p.tree p.home with
  | .error cause => (.error cause, p)
  | .ok tree => (.ok (), { p with tree := tree })

def apart {α : Type} (doing : Doing α) : Doing α := fun p =>
  let (a, child) := doing.run p
  (a, p.after child)

end Doing

end PerfGate
