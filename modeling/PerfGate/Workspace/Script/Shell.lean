import PerfGate.Workspace.Process
import PerfGate.Workspace.Script.Syntax

/-!
# Shells

A shell is a process with variables, functions, arguments and options. An act changes it and
ends with a value or by leaving: a loop, a function, or the shell. A subshell starts with the
same scope and leaves only its tree and its streams behind.
-/

set_option autoImplicit false

namespace PerfGate.Script

structure Variable where
  value : Option Octets
  exported : Bool
  fixed : Bool

/-- What a function keeps of a variable while it has one of its own. -/
abbrev Kept := Octets × Option Variable

/-! ## Numbers in words -/

def digits? (s : Octets) : Option Nat :=
  if ¬ s.isEmpty ∧ s.toList.all Char.isDigit then some (Json.digitsValue s.toList) else none

def greatestNumber : Nat := 0x7fffffff

/-- A natural number with blanks around it, and a sign if it is needless. -/
def number? (s : Octets) : Option Nat :=
  let cs := ((s.toList.dropWhile Octets.isBlank).reverse.dropWhile Octets.isBlank).reverse
  let value (cs : List Char) (greatest : Nat) : Option Nat :=
    (digits? (String.ofList cs)).filter (· ≤ greatest)
  match cs with
  | '+' :: rest => value rest greatestNumber
  | '-' :: rest => value rest 0
  | cs => value cs greatestNumber

/-- Where `getopts` goes on: the number of the next argument, and how much of the one before it
has been read if there may be more in it. -/
structure OptionPlace where
  index : Nat
  offset : Option Nat

namespace OptionPlace

def start : OptionPlace := ⟨1, none⟩

end OptionPlace

/-- What a subshell starts with. -/
structure Scope where
  name : Octets
  arguments : List Octets
  bindings : List (Octets × Variable)
  functions : List (Octets × Command)
  options : List Char
  documents : Array Word
  /-- What is done when a signal comes, by number; zero is the end of the shell. -/
  traps : List (Nat × Octets)
  /-- The signals that the process never hears of. -/
  ignored : List Nat
  /-- What the functions that are running keep, the innermost first. -/
  kept : List (List Kept)
  loops : Nat
  /-- How many functions are running. -/
  calls : Nat
  line : Nat
  /-- The line up to which the script has been read. -/
  reached : Nat
  /-- The command that is named in complaints. -/
  speaker : Option Octets
  subshell : Bool
  nextOption : OptionPlace

/-- A command that runs aside, later or already ended. -/
structure Job where
  number : Nat
  waiting : Option (Scope × Nat × List (Nat × Nat) × Command)
  status : Nat

structure Shell where
  process : Process
  scope : Scope
  status : Nat
  /-- The status of the last output that was put into a word. -/
  outputStatus : Nat
  jobs : List Job
  /-- Signals that have come and wait for their traps. -/
  signals : List Nat

/-- Why an act ends early. -/
inductive Leave where
  | exit
  /-- A fault that was told. -/
  | fault
  | killed (signal : Nat)
  /-- Another shell that this one depends on was ended. -/
  | felled (signal : Nat)
  /-- Another program took the place of the shell and ended. -/
  | replaced (ending : Exit)
  | loop (depth : Nat)
  | round (depth : Nat)
  | back
  deriving DecidableEq, Repr

abbrev Act := ExceptT Leave (StateM Shell)

namespace Act

def doing {α : Type} (d : Doing α) : Act α := fun s =>
  let (a, process) := d.run s.process
  (.ok a, { s with process := process })

/-- What an act comes to, be it a value or a reason to leave. -/
def caught {α : Type} (act : Act α) : Act (Except Leave α) := fun s =>
  let (result, s) := act.run s
  (.ok result, s)

def resumed {α : Type} : Except Leave α → Act α
  | .ok a => pure a
  | .error leave => throw leave

def scope : Act Scope := do
  return (← get).scope

def within (f : Scope → Scope) : Act Unit :=
  modify fun s => { s with scope := f s.scope }

def setStatus (status : Nat) : Act Unit :=
  modify fun s => { s with status := status }

/-! ## Complaints -/

def complaintText (s : Scope) (message : Octets) : Octets :=
  let speaker := match s.speaker with
    | some name => name ++ ": "
    | none => ""
  s.name ++ ": " ++ toString s.line ++ ": " ++ speaker ++ message ++ "\n"

def warn (message : Octets) : Act Unit := do
  doing (Doing.complain (complaintText (← scope) message))

def failWith {α : Type} (status : Nat) (message : Octets) : Act α := do
  warn message
  setStatus status
  throw .fault

def fail {α : Type} (message : Octets) : Act α :=
  failWith 2 message

/-! ## Options -/

def isSet (option : Char) : Act Bool := do
  return (← scope).options.contains option

def setOption (option : Char) (on : Bool) : Act Unit :=
  within fun s =>
    let others := s.options.filter (· ≠ option)
    { s with options := if on then others ++ [option] else others }

/-! ## Variables -/

def variableNamed (name : Octets) : Act (Option Variable) := do
  return (← scope).bindings.lookup name

def lookup? (name : Octets) : Act (Option Octets) := do
  return (← variableNamed name).bind (·.value)

def putVariable (name : Octets) (v : Variable) : Act Unit :=
  within fun s =>
    if (s.bindings.lookup name).isSome then
      { s with bindings := s.bindings.map fun (n, w) => if n = name then (n, v) else (n, w) }
    else { s with bindings := s.bindings ++ [(name, v)] }

def dropVariable (name : Octets) : Act Unit :=
  within fun s => { s with bindings := s.bindings.filter (·.1 ≠ name) }

/-- Whether a new value is exported: it was before, or every one is. -/
def isExported (old : Option Variable) : Act Bool := do
  return (old.map (·.exported)).getD false || (← isSet 'a')

def store (name value : Octets) : Act Unit := do
  let old ← variableNamed name
  if (old.map (·.fixed)).getD false then fail (name ++ ": is read only")
  else putVariable name ⟨some value, ← isExported old, false⟩

/-- A new value of a variable, which may also say where `getopts` goes on. -/
def assign (name value : Octets) : Act Unit := do
  store name value
  if name = "OPTIND" then
    match number? value with
    | some n => within fun s => { s with nextOption := ⟨max 1 n, none⟩ }
    | none => fail ("Illegal number: " ++ value)

def exportVariable (name : Octets) : Act Unit := do
  match ← variableNamed name with
  | some v => putVariable name { v with exported := true }
  | none => putVariable name ⟨none, true, false⟩

def fixVariable (name : Octets) : Act Unit := do
  match ← variableNamed name with
  | some v => putVariable name { v with fixed := true }
  | none => putVariable name ⟨none, false, true⟩

def unset (name : Octets) : Act Unit := do
  match ← variableNamed name with
  | some v => if v.fixed then fail (name ++ ": is read only") else dropVariable name
  | none => return ()

def keep (name : Octets) : Act Unit := do
  let old ← variableNamed name
  within fun s =>
    match s.kept with
    | innermost :: rest =>
      if (innermost.lookup name).isSome then s
      else { s with kept := ((name, old) :: innermost) :: rest }
    | [] => s

def restore (kept : List Kept) : Act Unit :=
  kept.forM fun (name, old) =>
    match old with
    | some v => putVariable name v
    | none => dropVariable name

def keeping {α : Type} (act : Act α) : Act α := do
  within fun s => { s with kept := [] :: s.kept }
  let result ← caught act
  let kept := ((← scope).kept.head?).getD []
  within fun s => { s with kept := s.kept.drop 1 }
  restore kept
  resumed result

def separators : Act Octets := do
  return (← lookup? "IFS").getD " \t\n"

def environment : Act (List (Octets × Octets)) := do
  return (← scope).bindings.filterMap fun (name, v) =>
    if v.exported then v.value.map fun value => (name, value) else none

/-! ## Statuses -/

def killedStatus (signal : Nat) : Nat := 128 + signal

def statusOf : Exit → Nat
  | .status code => code
  | .signal number => killedStatus number

def signalWords : List (Nat × Octets) := [
  (1, "Hangup"), (2, ""), (3, "Quit"), (4, "Illegal instruction"), (5, "Trace/breakpoint trap"),
  (6, "Aborted"), (7, "Bus error"), (8, "Floating point exception"), (9, "Killed"),
  (10, "User defined signal 1"), (11, "Segmentation fault"), (12, "User defined signal 2"),
  (13, ""), (14, "Alarm clock"), (15, "Terminated"), (16, "Stack fault"),
  (24, "CPU time limit exceeded"), (25, "File size limit exceeded"),
  (26, "Virtual timer expired"), (27, "Profiling timer expired"), (29, "I/O possible"),
  (30, "Power failure"), (31, "Bad system call")]

def dumps : List Nat := [3, 4, 5, 6, 7, 8, 11, 24, 25, 31]

def obituary (signal : Nat) : Octets :=
  let words := (signalWords.lookup signal).getD ("Real-time signal " ++ toString (signal - 34))
  if words.isEmpty then "" else words ++ "\n"

/-- The status of a process that has ended, which is told if a signal did it. -/
def ended : Exit → Act Nat
  | .status code => return code
  | .signal number => do
    doing (Doing.complain (obituary number))
    return killedStatus number

end Act

/-- What words and commands are made of needs commands again: running them, taking what they
write and starting programs. -/
structure Powers where
  /-- Runs a command; the flag says that its failure is expected. -/
  run : Bool → Command → Act Nat
  output : Command → Act Octets
  /-- Runs the commands of a text. -/
  text : Bool → Octets → Act Nat
  launch : Launcher

end PerfGate.Script
