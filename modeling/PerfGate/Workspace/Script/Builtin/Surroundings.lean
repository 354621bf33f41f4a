import PerfGate.Workspace.Script.Builtin.Words
import PerfGate.Workspace.Script.Lookup

/-!
# Commands on the surroundings

The directory of the shell, what its commands are, and settings that every process has.
-/

set_option autoImplicit false

namespace PerfGate.Script.Builtin

open Act

/-! ## The directory -/

/-- The names of a path without dots, and with the names that two dots take back. -/
def settled (names : List Octets) : List Octets :=
  (names.foldl step []).reverse
where
  step (sofar : List Octets) (name : Octets) : List Octets :=
    if Tree.isStay name then sofar
    else if name = ".." then sofar.drop 1
    else name :: sofar

def absolutePath (current path : Octets) : Octets :=
  let all := if Path.isAbsolute path then path else current ++ "/" ++ path
  "/" ++ Expansion.joinedBy "/" (settled (Tree.segments all))

/-- The path of a directory, name by name up to the root. -/
def pathOf (t : Tree) : Nat → Nat → Octets
  | 0, _ => ""
  | fuel + 1, directory =>
    if directory = Tree.root then ""
    else
      let above := t.parent directory
      match (t.names above).find? fun (_, node) => node = directory with
      | some (name, _) => pathOf t fuel above ++ "/" ++ name
      | none => ""

def directoryPath (process : Process) : Octets :=
  let path := pathOf process.tree 0x1000 process.home
  if path.isEmpty then "/" else path

def workingPath : Act Octets := do
  match ← lookup? "PWD" with
  | some path => return path
  | none => return directoryPath (← get).process

def changing : Body := fun words => do
  let (_, words) ← options "LP" words
  let (goal, tells) ← match words with
    | [] => pure ((← lookup? "HOME").getD "", false)
    | "-" :: _ => pure ((← lookup? "OLDPWD").getD "", true)
    | path :: _ => pure (path, false)
  if goal.isEmpty then return 0
  else
    let process := (← get).process
    match process.tree.find process.home goal with
    | .error _ => fail ("can't cd to " ++ goal)
    | .ok node =>
      if ¬ process.tree.isDirectory node then fail ("can't cd to " ++ goal)
      else
        let before ← workingPath
        let path := absolutePath before goal
        modify fun s => { s with process := { s.process with home := node } }
        store "OLDPWD" before
        store "PWD" path
        if tells then print (path ++ "\n") else return 0

def showingPath : Body := fun words => do
  discard (options "LP" words)
  print ((← workingPath) ++ "\n")

/-! ## Commands -/

def describing : Body := fun words => do
  let found ← words.mapM Lookup.described
  let status := if found.all (·.2) then 0 else 127
  printWith status (String.join (found.map (·.1)))

/-- What stands for a name, in a sentence or in a word. -/
def commandNamed (long : Bool) (name : Octets) : Act Nat := do
  if long then
    let (text, found) ← Lookup.described name
    printWith (if found then 0 else 127) text
  else
    match ← Lookup.named name with
    | some text => print (text ++ "\n")
    | none => return 127

/-! ## Settings of processes -/

def masking : Body := fun words => do
  let (_, words) ← options "S" words
  if words.isEmpty then print "0022\n" else return 0

def limiting : Body := fun words =>
  if words.length ≤ 1 then print "unlimited\n" else pure 0

def timing : Body := fun _ =>
  print "0m0.000000s 0m0.000000s\n0m0.000000s 0m0.000000s\n"

end PerfGate.Script.Builtin
