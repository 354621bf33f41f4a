import PerfGate.Workspace.Script.Shell
import PerfGate.Workspace.Script.Grammar

/-!
# Finding commands

A name by itself is that of a function, of a command that the shell has built in, or of a
program in one of the directories of the path. The special ones among those built in keep the
variables that are set before them, and their faults end the shell.
-/

set_option autoImplicit false

namespace PerfGate.Script.Lookup

def special : List Octets :=
  [".", ":", "break", "continue", "eval", "exec", "exit", "export", "local", "readonly",
    "return", "set", "shift", "times", "trap", "unset"]

def ordinary : List Octets :=
  ["[", "alias", "bg", "cd", "chdir", "command", "echo", "false", "fg", "getopts", "hash", "jobs",
    "kill", "printf", "pwd", "read", "test", "true", "type", "ulimit", "umask", "unalias",
    "wait"]

def declaring : List Octets := ["export", "local", "readonly"]

inductive Found where
  | function (body : Command)
  | builtin (special : Bool)
  | program (path : Octets)
  /-- Found, but not to be started. -/
  | barred
  | missing

def defaultPath : Octets := "/usr/local/sbin:/usr/local/bin:/usr/sbin:/usr/bin:/sbin:/bin"

def inDirectory (directory name : Octets) : Octets :=
  if directory.isEmpty then name else directory ++ "/" ++ name

/-- Whether a path leads to a file, and whether that can be started. -/
def startable? (p : Process) (path : Octets) : Option Bool :=
  match p.tree.find p.home path with
  | .error _ => none
  | .ok node =>
    match p.tree.entry node with
    | .program _ => some true
    | .file _ executable => some executable
    | _ => some false

def inPath (p : Process) (name : Octets) : List Octets → Bool → Found
  | [], barred => if barred then .barred else .missing
  | directory :: rest, barred =>
    let path := inDirectory directory name
    match startable? p path with
    | some true => .program path
    | some false => inPath p name rest true
    | none => inPath p name rest barred

def directories : Act (List Octets) := do
  return ((← Act.lookup? "PATH").getD defaultPath).splitOn ":"

def program (name : Octets) : Act Found := do
  if name.toList.contains '/' then return .program name
  else return inPath (← get).process name (← directories) false

def command (functions : Bool) (name : Octets) : Act Found := do
  match (← Act.scope).functions.lookup name with
  | some body => if functions then return .function body else builtin
  | none => builtin
where
  builtin : Act Found :=
    if name ∈ special then pure (.builtin true)
    else if name ∈ ordinary then pure (.builtin false)
    else program name

def present (path : Octets) : Act Bool := do
  return (startable? (← get).process path).isSome

/-! ## Descriptions -/

def isKeyword (name : Octets) : Bool :=
  name ∈ Reading.keywords

def described (name : Octets) : Act (Octets × Bool) := do
  if isKeyword name then return (name ++ " is a shell keyword\n", true)
  else
    match ← command true name with
    | .function .. => return (name ++ " is a shell function\n", true)
    | .builtin true => return (name ++ " is a special shell builtin\n", true)
    | .builtin false => return (name ++ " is a shell builtin\n", true)
    | .program path =>
      if ← present path then return (name ++ " is " ++ path ++ "\n", true)
      else return (name ++ ": not found\n", false)
    | _ => return (name ++ ": not found\n", false)

def named (name : Octets) : Act (Option Octets) := do
  if isKeyword name then return some name
  else
    match ← command true name with
    | .function .. => return some name
    | .builtin _ => return some name
    | .program path => return if ← present path then some path else none
    | _ => return none

end PerfGate.Script.Lookup
