import PerfGate.Workspace.Script.Interpreter

/-!
# Starting programs

A path leads to a program that every machine has, or to an executable file whose first line
names the program that reads it. A name by itself is looked up in the directories of the path.
-/

set_option autoImplicit false

namespace PerfGate

namespace Launch

/-! ## First lines -/

/-- How much of a file is looked at for the name of a program. -/
def firstPart : Nat := 256

def isGap (c : Char) : Bool := c = ' ' || c = '\t'

def reader? (text : Octets) : Option (Octets × Option Octets) :=
  match text.toList.take firstPart with
  | '#' :: '!' :: rest =>
    let line := (rest.takeWhile (· ≠ '\n')).dropWhile isGap
    let line := (line.reverse.dropWhile isGap).reverse
    let path := line.takeWhile fun c => ¬ isGap c
    let word := (line.drop path.length).dropWhile isGap
    if path.isEmpty then none
    else some (String.ofList path, if word.isEmpty then none else some (String.ofList word))
  | _ => none

/-! ## Paths -/

abbrev Provided := List (String × (Launcher → Program))

/-- Starts what a path leads to, through so many readers at most. -/
def start (provided : Provided) : Nat → Launcher
  | 0, _, _ => return .error .linkLoop
  | depth + 1, path, words => do
    let p ← get
    match p.tree.find p.home path with
    | .error cause => return .error cause
    | .ok node =>
      match p.tree.entry node with
      | .program name =>
        match provided.lookup name with
        | some program =>
          modify fun p => { p with called := words.head?.getD name }
          return .ok (← program (start provided depth) words)
        | none => return .error .permissionDenied
      | .file text true =>
        match reader? text with
        | some (reader, word) =>
          start provided depth reader (reader :: word.toList ++ path :: words.drop 1)
        | none => return .error .unknownFormat
      | _ => return .error .permissionDenied

def depth : Nat := 64

/-! ## Names -/

def searched (launch : Launcher) (words : List Octets) (name : Octets) :
    List Octets → FileFault → Doing (Except FileFault Exit)
  | [], fault => return .error fault
  | directory :: rest, fault => do
    match ← launch (Script.Lookup.inDirectory directory name) words with
    | .error .notFound | .error .notDirectory => searched launch words name rest fault
    | .error .permissionDenied => searched launch words name rest .permissionDenied
    | result => return result

def byName (launch : Launcher) (name : Octets) (words : List Octets) :
    Doing (Except FileFault Exit) := do
  if name.isEmpty then return .error .notFound
  else if name.toList.contains '/' then launch name words
  else if Tree.longestName < name.length then return .error .nameTooLong
  else
    let directories := ((← get).environment.lookup "PATH").getD Script.Lookup.defaultPath
    searched launch words name (directories.splitOn ":") .notFound

end Launch

end PerfGate
