import PerfGate.Workspace.Script.Execution

/-!
# The interpreter

The interpreter takes options, then a file of commands or a text of them, and then arguments.
Without either it reads its input. What is exported around it is exported in it.
-/

set_option autoImplicit false

namespace PerfGate.Script.Interpreter

open Act

/-- How the interpreter was called. -/
structure Invocation where
  text : Bool
  words : List Octets

/-! ## Options -/

def applyLetters (on : Bool) (text : Bool) : List Char → List Octets → Act (Bool × List Octets)
  | [], words => return (text, words)
  | 'o' :: letters, words =>
    match words with
    | name :: rest => do
      Builtin.setNamed name on
      applyLetters on text letters rest
    | [] => applyLetters on text letters []
  | c :: letters, words => do
    if c = 'c' then applyLetters on true letters words
    else if c = 'l' then applyLetters on text letters words
    else
      Builtin.setLetter c on
      applyLetters on text letters words

def options (text : Bool) : Nat → List Octets → Act Invocation
  | 0, words => return ⟨text, words⟩
  | _, [] => return ⟨text, []⟩
  | fuel + 1, word :: rest =>
    match word.toList with
    | ['-'] => return ⟨text, rest⟩
    | ['-', '-'] => return ⟨text, rest⟩
    | '-' :: letters => do
      let (text, words) ← applyLetters true text letters rest
      options text fuel words
    | '+' :: letters => do
      let (text, words) ← applyLetters false text letters rest
      options text fuel words
    | _ => return ⟨text, word :: rest⟩

/-! ## Running -/

def depth : Nat := 40000

def named (name : Octets) (arguments : List Octets) : Act Unit := do
  within fun s => { s with name := name, arguments := arguments }

def runText (p : Powers) (text : Octets) : Act Nat := do
  within fun s => { s with line := 1 }
  p.text false text

def openFault (path : Octets) (cause : FileFault) : Act Nat :=
  match cause with
  | .notFound | .notDirectory => fail ("cannot open " ++ path ++ ": No such file")
  | .isDirectory => return 0
  | cause => fail ("cannot open " ++ path ++ ": " ++ cause.reason)

def interpret (p : Powers) (words : List Octets) : Act Nat := do
  let i ← options false (words.length + 1) words
  match i.text, i.words with
  | true, [] => fail "-c requires an argument"
  | true, text :: rest =>
    match rest with
    | name :: arguments => named name arguments
    | [] => pure ()
    runText p text
  | false, [] =>
    setOption 's' true
    match ← doing (Doing.read 0 .all) with
    | .ok text => runText p text
    | .error _ => return 0
  | false, path :: arguments =>
    if ← isSet 's' then
      within fun s => { s with arguments := path :: arguments }
      match ← doing (Doing.read 0 .all) with
      | .ok text => runText p text
      | .error _ => return 0
    else
      match ← doing (Doing.readPath path) with
      | .error cause => openFault path cause
      | .ok text =>
        named path arguments
        runText p text

/-! ## The start -/

def startingBindings (path : Octets) (environment : List (Octets × Octets)) :
    List (Octets × Variable) :=
  let given := environment.filterMap fun (name, value) =>
    if isName name then some (name, (⟨some value, true, false⟩ : Variable)) else none
  let given := if (given.lookup "PWD").isSome then given
    else given ++ [("PWD", (⟨some path, true, false⟩ : Variable))]
  let own : List (Octets × Octets) := [
    ("IFS", " \t\n"), ("OPTIND", "1"), ("PATH", Lookup.defaultPath), ("PS1", "# "),
    ("PS2", "> "), ("PS4", "+ "), ("PPID", "1")]
  let more := own.filter fun (name, _) => name = "IFS" ∨ (given.lookup name).isNone
  (given.filter (·.1 ≠ "IFS")) ++
    more.map fun (name, value) => (name, (⟨some value, false, false⟩ : Variable))

def startingScope (name : Octets) (p : Process) : Scope where
  name := name
  arguments := []
  bindings := startingBindings (Builtin.directoryPath p) p.environment
  functions := []
  options := []
  documents := #[]
  traps := []
  ignored := p.ignored
  kept := []
  loops := 0
  calls := 0
  line := 0
  reached := 0
  speaker := none
  subshell := false
  nextOption := .start

def startingShell (p : Process) (name : Octets) : Shell where
  process := p
  scope := startingScope name p
  status := 0
  outputStatus := 0
  jobs := []
  signals := []

def program (launch : Launcher) : Program := fun words process =>
  let p := Execution.powers launch depth
  let act := concluded p shellDepth (interpret p (words.drop 1))
  let (result, s) := act.run (startingShell process (words.head?.getD "sh"))
  match result with
  | .ok ending => (ending, s.process)
  | .error (.felled signal) => (.signal signal, s.process)
  | .error _ => (.status s.status, s.process)

end PerfGate.Script.Interpreter
