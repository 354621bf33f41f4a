import PerfGate.Machine.Directories
import PerfGate.Workspace.Octets

/-!
# Trees of files

A tree is a table of nodes: directories, files, devices, programs and links. A directory
gives names to nodes and knows the one above it; the root is the first node. A path is
followed name by name. Every name but the last has to lead to a directory, a single dot
stays, two dots go up, and a link goes on from the directory that holds it.
-/

set_option autoImplicit false

namespace PerfGate

inductive Device where
  /-- Takes everything and gives nothing. -/
  | null
  /-- Gives zero bytes without end and takes everything. -/
  | zero
  /-- Gives zero bytes without end and takes nothing. -/
  | full
  /-- A terminal that is not there. -/
  | terminal
  /-- What a process has opened under a number. -/
  | descriptor (number : Nat)
  deriving DecidableEq, Repr

inductive Entry where
  | directory (parent : Nat) (names : List (Octets × Nat))
  | file (text : Octets) (executable : Bool)
  | link (target : Octets)
  | device (d : Device)
  /-- A program that every machine has. -/
  | program (name : String)
  deriving Repr

structure Tree where
  nodes : Array Entry

namespace Tree

def root : Nat := 0

/-- A tree that is only a root. -/
def bare : Tree := ⟨#[.directory root []]⟩

def entry (t : Tree) (node : Nat) : Entry :=
  t.nodes.getD node (.directory root [])

def put (t : Tree) (node : Nat) (e : Entry) : Tree :=
  ⟨t.nodes.setIfInBounds node e⟩

def names (t : Tree) (directory : Nat) : List (Octets × Nat) :=
  match t.entry directory with
  | .directory _ names => names
  | _ => []

def parent (t : Tree) (directory : Nat) : Nat :=
  match t.entry directory with
  | .directory parent _ => parent
  | _ => root

def isDirectory (t : Tree) (node : Nat) : Bool :=
  match t.entry node with
  | .directory .. => true
  | _ => false

def rename (t : Tree) (directory : Nat)
    (change : List (Octets × Nat) → List (Octets × Nat)) : Tree :=
  t.put directory (.directory (t.parent directory) (change (t.names directory)))

def bind (t : Tree) (directory : Nat) (name : Octets) (node : Nat) : Tree :=
  let t := t.rename directory fun names => names.filter (·.1 ≠ name) ++ [(name, node)]
  match t.entry node with
  | .directory _ below => t.put node (.directory directory below)
  | _ => t

def unbind (t : Tree) (directory : Nat) (name : Octets) : Tree :=
  t.rename directory fun names => names.filter (·.1 ≠ name)

def add (t : Tree) (directory : Nat) (name : Octets) (e : Entry) : Tree × Nat :=
  let node := t.nodes.size
  let t : Tree := ⟨t.nodes.push e⟩
  (t.bind directory name node, node)

/-! ## Following paths -/

def longestName : Nat := 255

def longestPath : Nat := 4095

def longestChain : Nat := 40

/-- Where a path leads. -/
inductive Target where
  /-- To a directory by a name that is not its own: a dot, two dots, or nothing. -/
  | itself (directory : Nat)
  /-- To a name in a directory, with a slash after it or without. -/
  | name (directory : Nat) (name : Octets) (slash : Bool)
  deriving Repr

def segments (path : Octets) : List Octets :=
  (Path.segments path.toList).map String.ofList

def isStay (name : Octets) : Bool :=
  name = "" || name = "."

def child? (t : Tree) (directory : Nat) (name : Octets) : Option Nat :=
  (t.names directory).lookup name

def start (home : Nat) (path : Octets) : Nat :=
  if Path.isAbsolute path then root else home

/-- Follows names from a directory. A link in the middle is replaced by the names it holds; the
last name is followed too if it is a link and `through` says so. -/
def follow (t : Tree) (through : Bool) : Nat → Nat → Nat → List Octets →
    Except FileFault Target
  | 0, _, _, _ => .error .linkLoop
  | _, _, directory, [] => .ok (.itself directory)
  | fuel + 1, links, directory, name :: rest =>
    if ¬ t.isDirectory directory then .error .notDirectory
    else if isStay name then t.follow through fuel links directory rest
    else if name = ".." then t.follow through fuel links (t.parent directory) rest
    else if longestName < name.length then .error .nameTooLong
    else
      let last := rest.all (· = "")
      let slash := ¬ rest.isEmpty
      match t.child? directory name with
      | none => if last then .ok (.name directory name slash) else .error .notFound
      | some node =>
        match t.entry node with
        | .link target =>
          if last ∧ ¬ slash ∧ ¬ through then .ok (.name directory name slash)
          else if longestChain ≤ links then .error .linkLoop
          else t.follow through fuel (links + 1) (start directory target) (segments target ++ rest)
        | .directory .. =>
          if last then .ok (.name directory name slash) else t.follow through fuel links node rest
        | _ => if last then .ok (.name directory name slash) else .error .notDirectory

/-- The steps that following a path can take at most: each link adds names. -/
def steps (path : Octets) : Nat :=
  path.length + longestPath * (longestChain + 1) + 2

def locateBy (t : Tree) (through : Bool) (home : Nat) (path : Octets) : Except FileFault Target :=
  if path.toList.contains '\x00' then .error .zeroInPath
  else if path.isEmpty then .error .notFound
  else if longestPath < path.length then .error .nameTooLong
  else t.follow through (steps path) 0 (start home path) (segments path)

def locate (t : Tree) (home : Nat) (path : Octets) : Except FileFault Target :=
  t.locateBy true home path

def nodeOf (t : Tree) : Target → Except FileFault Nat
  | .itself directory => .ok directory
  | .name directory name slash =>
    match t.child? directory name with
    | none => .error .notFound
    | some node => if slash ∧ ¬ t.isDirectory node then .error .notDirectory else .ok node

def find (t : Tree) (home : Nat) (path : Octets) : Except FileFault Nat := do
  t.nodeOf (← t.locate home path)

/-- The same without following a link at the end. -/
def findSelf (t : Tree) (home : Nat) (path : Octets) : Except FileFault Nat := do
  t.nodeOf (← t.locateBy false home path)

def present (t : Tree) (home : Nat) (path : Octets) : Bool :=
  match t.find home path with
  | .ok _ => true
  | .error _ => false

/-! ## Making and removing -/

/-- The node to write to, made if it is not there. Only names without a slash can be made. -/
def openForWriting (t : Tree) (home : Nat) (path : Octets) : Except FileFault (Tree × Nat) :=
  match t.locate home path with
  | .error cause => .error cause
  | .ok (.itself _) => .error .isDirectory
  | .ok (.name _ _ true) => .error .isDirectory
  | .ok (.name directory name false) =>
    match t.child? directory name with
    | some node => if t.isDirectory node then .error .isDirectory else .ok (t, node)
    | none => .ok (t.add directory name (.file "" false))

/-- Replaces the text of a file; other nodes stay as they are. -/
def setText (t : Tree) (node : Nat) (text : Octets) : Tree :=
  match t.entry node with
  | .file _ executable => t.put node (.file text executable)
  | _ => t

def textOf (t : Tree) (node : Nat) : Octets :=
  match t.entry node with
  | .file text _ => text
  | _ => ""

def makeOne (t : Tree) (home : Nat) (path : Octets) : Except FileFault Tree :=
  match t.locateBy false home path with
  | .error cause => .error cause
  | .ok (.itself _) => .error .alreadyExists
  | .ok (.name directory name _) =>
    match t.child? directory name with
    | some _ => .error .alreadyExists
    | none => .ok (t.add directory name (.directory directory [])).1

def leadsToDirectory (t : Tree) (home : Nat) (path : Octets) : Bool :=
  match t.find home path with
  | .ok node => t.isDirectory node
  | .error _ => false

def directories (home : Nat) : Directories (StateM Tree) where
  make path := fun t =>
    match t.makeOne home (Octets.encode path) with
    | .error cause => (.error cause, t)
    | .ok t => (.ok (), t)
  isDirectory path := fun t => (t.leadsToDirectory home (Octets.encode path), t)

def makeDirectory (t : Tree) (home : Nat) (path : String) : Except FileFault Tree :=
  match ((directories home).makeAll path).run t with
  | (.error cause, _) => .error cause
  | (.ok _, t) => .ok t

/-- Takes the name of a node that is not a directory away. -/
def unlink (t : Tree) (home : Nat) (path : Octets) : Except FileFault Tree := do
  match ← t.locateBy false home path with
  | .itself _ => .error .isDirectory
  | .name directory name slash =>
    match t.child? directory name with
    | none => .error .notFound
    | some node =>
      if t.isDirectory node then .error .isDirectory
      else if slash then .error .notDirectory
      else .ok (t.unbind directory name)

def removeDirectory (t : Tree) (home : Nat) (path : Octets) : Except FileFault Tree := do
  match ← t.locateBy false home path with
  | .itself _ => .error .invalid
  | .name directory name _ =>
    match t.child? directory name with
    | none => .error .notFound
    | some node =>
      if ¬ t.isDirectory node then .error .notDirectory
      else if ¬ (t.names node).isEmpty then .error .notEmpty
      else .ok (t.unbind directory name)

/-! ## The files below a directory -/

def filesBelow (t : Tree) : Nat → Octets → Nat → List (Octets × Octets)
  | 0, _, _ => []
  | fuel + 1, path, node =>
    (t.names node).flatMap fun (name, child) =>
      match t.entry child with
      | .directory .. => t.filesBelow fuel (path ++ name ++ "/") child
      | .file text _ => [(path ++ name, text)]
      | _ => []

def files (t : Tree) (home : Nat) : List (Octets × Octets) :=
  t.filesBelow (longestPath + 1) "" home

/-- A text that names an interpreter at its start is a program. -/
def isProgram (text : Octets) : Bool :=
  ['#', '!'].isPrefixOf text.toList

/-- The directory at the end of the names, made if it is not there. -/
def plantDirectory (t : Tree) (directory : Nat) : List Octets → Tree × Nat
  | [] => (t, directory)
  | name :: rest =>
    match t.child? directory name with
    | some node => t.plantDirectory node rest
    | none =>
      let (t, node) := t.add directory name (.directory directory [])
      t.plantDirectory node rest

/-- Puts a node at the end of the names, below directories that are made for it. -/
def plantEntry (t : Tree) (directory : Nat) (names : List Octets) (e : Entry) : Tree :=
  let (t, above) := t.plantDirectory directory names.dropLast
  match names.getLast? with
  | some name => (t.add above name e).1
  | none => t

/-- Puts a file, or a directory if the path ends with a slash, below `home`. -/
def plant (t : Tree) (home : Nat) (path text : Octets) : Tree :=
  let names := (segments path).filter fun name => ¬ isStay name
  if path.toList.getLast? = some '/' then (t.plantDirectory home names).1
  else t.plantEntry home names (.file text (isProgram text))

end Tree

end PerfGate
