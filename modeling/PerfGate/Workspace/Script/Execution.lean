import PerfGate.Workspace.Script.Builtin.Control
import PerfGate.Workspace.Script.Builtin.Surroundings
import PerfGate.Workspace.Script.Builtin.Variables
import PerfGate.Workspace.Script.Condition
import PerfGate.Workspace.Script.Grammar
import PerfGate.Workspace.Script.Printing
import PerfGate.Workspace.Script.Streams

/-!
# Running commands

The words of a simple command are expanded, then its streams are redirected, then its variables
are set, and then it is a function, a built-in command or a program. A fault in it is told and
is its status; faults of the special commands, and those of words, end the shell.
-/

set_option autoImplicit false

namespace PerfGate.Script

open Act

namespace Execution

/-! ## Built-in commands -/

def echoing : Builtin.Body := fun words =>
  Builtin.print (Printing.echoed words)

def formatting : Builtin.Body := fun words => do
  let (_, words) ← Builtin.options "" words
  match words with
  | [] => fail "usage: printf format [arg ...]"
  | format :: words =>
    let (text, status) ← Printing.formatted format words
    Builtin.printWith status text

def conditionStatus (words : List Octets) : Act Nat := do
  return if ← Condition.evaluate (words.length + 2) words then 0 else 1

def bracketed : Builtin.Body := fun words =>
  if words.getLast?.any fun w => w.toList.head? = some ']' then conditionStatus words.dropLast
  else fail "missing ]"

def success : Builtin.Body := fun _ => pure 0

def failure : Builtin.Body := fun _ => pure 1

def builtin (p : Powers) (tested : Bool) (name : Octets) : Builtin.Body :=
  match name with
  | "." => fun words => do Builtin.sourcing p (← Lookup.directories) words
  | "break" => Builtin.leaving false
  | "continue" => Builtin.leaving true
  | "eval" => Builtin.evaluating p tested
  | "exit" => Builtin.exiting
  | "export" => Builtin.exporting
  | "local" => Builtin.owning
  | "readonly" => Builtin.fixing
  | "return" => Builtin.returning
  | "set" => Builtin.setting
  | "shift" => Builtin.shifting
  | "times" => Builtin.timing
  | "trap" => Builtin.trapping
  | "unset" => Builtin.unsetting
  | "[" => bracketed
  | "test" => conditionStatus
  | "cd" | "chdir" => Builtin.changing
  | "echo" => echoing
  | "printf" => formatting
  | "false" => failure
  | "getopts" => Builtin.nextOption
  | "kill" => Builtin.killing
  | "pwd" => Builtin.showingPath
  | "read" => Builtin.reading
  | "type" => Builtin.describing
  | "ulimit" => Builtin.limiting
  | "umask" => Builtin.masking
  | "wait" => Builtin.waiting p
  | _ => success

/-! ## Programs -/

def spoken {α : Type} (name : Octets) (act : Act α) : Act α := do
  let before := (← scope).speaker
  within fun s => { s with speaker := some name }
  let result ← caught act
  within fun s => { s with speaker := before }
  resumed result

/-- Why a program could not be started, and the status that stands for it. -/
def launchFault (name : Octets) (cause : FileFault) : Act Nat := do
  let reason := match cause with
    | .notFound | .notDirectory => "not found"
    | cause => cause.reason
  warn (name ++ ": " ++ reason)
  return match cause with
    | .notFound | .notDirectory | .linkLoop | .nameTooLong => 127
    | _ => 126

/-- The program that reads a file that is none. -/
def interpreter : Octets := "/bin/sh"

/-- Starts a program. What is executable but no program is read as a script. -/
def started (p : Powers) (path : Octets) (words : List Octets) : Act (Except FileFault Exit) := do
  let environment ← environment
  let s ← scope
  let ignored := s.ignored ++ (s.traps.filter (·.2.isEmpty)).map (·.1)
  modify fun s => { s with
    process := { s.process with environment := environment, ignored := ignored } }
  match ← doing (Doing.apart (p.launch path words)) with
  | .error .unknownFormat =>
    doing (Doing.apart (p.launch interpreter (interpreter :: path :: words.drop 1)))
  | result => return result

/-- Programs that take their time, during which jobs come to their ends. -/
def slow : List Octets := ["sleep"]

def runProgram (p : Powers) (words : List Octets) : Act Nat := do
  let name := words.head?.getD ""
  match ← Lookup.program name with
  | .program path =>
    if name ∈ slow then settleJobs p
    match ← started p path words with
    | .ok ending => ended ending
    | .error cause => launchFault name cause
  | .barred =>
    warn (name ++ ": Permission denied")
    return 127
  | _ =>
    warn (name ++ ": not found")
    return 127

def replacing (p : Powers) (words : List Octets) : Act Nat := do
  match words with
  | [] => return 0
  | name :: _ =>
    let missing (status : Nat) (reason : Octets) : Act Nat := do
      warn (name ++ ": " ++ reason)
      setStatus status
      throw .exit
    match ← Lookup.program name with
    | .program path =>
      match ← started p path words with
      | .ok ending => throw (.replaced ending)
      | .error cause =>
        setStatus (← launchFault name cause)
        throw .exit
    | .barred => missing 126 "Permission denied"
    | _ => missing 127 "not found"

/-! ## Simple commands -/

/-- What the words of a simple command come to. -/
structure Call where
  words : List Octets
  found : Option Lookup.Found
  /-- Whether the faults of the command end the shell. -/
  special : Bool
  /-- Whether it only asks what commands are: in a sentence or in a word. -/
  asks : Option Bool

/-- The words after those that only say how a command is to be found. -/
def unwrapped : Nat → List Octets → List Octets × Option Bool
  | 0, words => (words, none)
  | fuel + 1, words =>
    match words with
    | "-p" :: rest => unwrapped fuel rest
    | "--" :: rest => (rest, none)
    | "-v" :: rest => (rest, some false)
    | "-V" :: rest => (rest, some true)
    | words => (words, none)

def called (words : List Octets) : Act Call := do
  match words with
  | [] => return ⟨[], none, false, none⟩
  | "command" :: rest =>
    match unwrapped (rest.length + 1) rest with
    | (rest, some long) => return ⟨rest, none, false, some long⟩
    | (rest, none) =>
      match rest with
      | [] => return ⟨words, some (.builtin false), false, none⟩
      | name :: _ => return ⟨rest, some (← Lookup.command false name), false, none⟩
  | name :: _ =>
    let found ← Lookup.command true name
    let special := match found with
      | .builtin special => special
      | _ => false
    return ⟨words, some found, special, none⟩

/-- Words of a command that sets variables are not cut where they set one. -/
def argument (p : Powers) (declares : Bool) (word : Word) : Act (List Octets) := do
  if declares ∧ (assigned? word).isSome then return [← assignmentText word]
  else Expansion.fields p word
where
  assignmentText (word : Word) : Act Octets := do
    match assigned? word with
    | some (name, value) => return name ++ "=" ++ (← Expansion.valueText p value)
    | none => Expansion.text p word

/-- The words of a command: the first of them says how the others are expanded. -/
def expandedWords (p : Powers) : List Word → Act (List Octets)
  | [] => return []
  | word :: rest => do
    match ← Expansion.fields p word with
    | [] => expandedWords p rest
    | name :: more =>
      let others ← rest.mapM (argument p (name ∈ Lookup.declaring))
      return name :: more ++ others.flatten

def expandedAssignments (p : Powers) (words : List Word) (set : Octets → Octets → Act Unit) :
    Act (List (Octets × Octets)) :=
  words.filterMap assigned? |>.mapM fun (name, word) => do
    let value ← Expansion.valueText p word
    set name value
    return (name, value)

def callLimit : Nat := 1000

def callFunction (p : Powers) (tested : Bool) (body : Command)
    (words : List Octets) : Act Nat := do
  let before ← scope
  if callLimit ≤ before.calls then
    fail ("Maximum function recursion depth (" ++ toString callLimit ++ ") reached")
  within fun s => { s with
    arguments := words
    loops := 0
    calls := before.calls + 1
    nextOption := .start }
  let result ← caught (p.run tested body)
  within fun s => { s with
    arguments := before.arguments
    loops := before.loops
    calls := before.calls
    nextOption := before.nextOption }
  match result with
  | .error .back => return (← get).status
  | result => resumed result

/-- Runs a built-in command; its faults are its status unless they end the shell. -/
def callBuiltin (p : Powers) (tested : Bool) (call : Call) (name : Octets)
    (words : List Octets) : Act Nat := do
  match ← caught (spoken name (builtin p tested name words)) with
  | .error .fault => if call.special then throw .fault else return (← get).status
  | result => resumed result

def trace (assignments : List (Octets × Octets)) (words : List Octets) : Act Unit := do
  if ← isSet 'x' then
    let sign := (← lookup? "PS4").getD "+ "
    let set := assignments.map fun (name, value) => name ++ "=" ++ value
    doing (Doing.complain (sign ++ Expansion.joinedBy " " (set ++ words) ++ "\n"))

def ask (long : Bool) (words : List Octets) : Act Nat :=
  spoken "command" do
    match words with
    | name :: _ => Builtin.commandNamed long name
    | [] => return 0

def perform (p : Powers) (tested : Bool) (call : Call) : Act Nat := do
  match call.asks, call.found, call.words with
  | some long, _, words => ask long words
  | none, some (.function body), _ :: words => callFunction p tested body words
  | none, some (.builtin _), "exec" :: words => spoken "exec" (replacing p words)
  | none, some (.builtin _), name :: words => callBuiltin p tested call name words
  | none, some _, words => runProgram p words
  | none, none, _ => return (← get).outputStatus

/-- Whether variables that are set before a command are gone after it. -/
def isPassing (call : Call) : Bool :=
  match call.found with
  | none => call.asks.isSome
  | some (.builtin special) => ¬ special
  | some _ => true

def setPassing (name value : Octets) : Act Unit := do
  keep name
  assign name value
  exportVariable name

def isLasting (call : Call) : Bool :=
  match call.found, call.words with
  | some (.builtin _), ["exec"] => true
  | _, _ => false

def simple (p : Powers) (tested : Bool) (line : Nat) (assignments words : List Word)
    (redirections : List Redirection) : Act Nat := do
  within fun s => { s with line := line }
  modify fun s => { s with outputStatus := 0 }
  let call ← called (← expandedWords p words)
  let goals ← Streams.expanded p redirections
  let body : Act Nat := do
    match ← caught (Streams.redirect goals) with
    | .error .fault => if call.special then throw .fault else return 2
    | result =>
      resumed result
      if isPassing call ∧ ¬ assignments.isEmpty then
        keeping do
          let set ← expandedAssignments p assignments setPassing
          trace set call.words
          perform p tested call
      else
        let set ← expandedAssignments p assignments assign
        trace set call.words
        match call.found with
        | some (.function ..) => keeping (perform p tested call)
        | _ => perform p tested call
  if isLasting call then body else Streams.restoring body

/-! ## Compound commands -/

/-- Rounds of a loop as long as there is a reason for another one. -/
def rounds (p : Powers) (negative : Bool) (condition body : Command) (tested : Bool) :
    Nat → Nat → Act Nat
  | 0, status => return status
  | fuel + 1, status => do
    let round : Act (Option Nat) := do
      let answer ← p.run true condition
      if (answer = 0) = negative then return none
      else return some (← p.run tested body)
    match ← caught round with
    | .ok none => return status
    | .ok (some status) => rounds p negative condition body tested fuel status
    | .error (.loop depth) => if depth ≤ 1 then return 0 else throw (.loop (depth - 1))
    | .error (.round depth) =>
      if depth ≤ 1 then rounds p negative condition body tested fuel 0
      else throw (.round (depth - 1))
    | .error leave => throw leave

def eachRound (p : Powers) (name : Octets) (body : Command) (tested : Bool) :
    List Octets → Nat → Act Nat
  | [], status => return status
  | word :: rest, _ => do
    assign name word
    match ← caught (p.run tested body) with
    | .ok status => eachRound p name body tested rest status
    | .error (.loop depth) => if depth ≤ 1 then return 0 else throw (.loop (depth - 1))
    | .error (.round depth) =>
      if depth ≤ 1 then eachRound p name body tested rest 0 else throw (.round (depth - 1))
    | .error leave => throw leave

def inLoop {α : Type} (act : Act α) : Act α := do
  within fun s => { s with loops := s.loops + 1 }
  let result ← caught act
  within fun s => { s with loops := s.loops - 1 }
  resumed result

def fitsOne (p : Powers) (text : Octets) : List Word → Act Bool
  | [] => return false
  | word :: rest => do
    if Wildcard.fits (← Expansion.pattern p word) text.toList then return true
    else fitsOne p text rest

def select (p : Powers) (tested : Bool) (text : Octets) :
    List (List Word × Command) → Act Nat
  | [] => return 0
  | (patterns, command) :: rest => do
    if ← fitsOne p text patterns then p.run tested command else select p tested text rest

def stages (p : Powers) (tested : Bool) : List Command → Option Nat → Act Nat
  | [], _ => return 0
  | command :: rest, input => do
    let before := (← get).process.descriptors
    match input with
    | some stream => modify fun s => { s with process := s.process.assign 0 stream }
    | none => pure ()
    let output ← if rest.isEmpty then pure none
      else do
        let (channel, process) := (← get).process.openStream (.channel "")
        modify fun s => { s with process := process.assign 1 channel }
        pure (some channel)
    let result ← caught (subshell p (p.run tested command))
    modify fun s => { s with process := { s.process with descriptors := before } }
    let ending ← resumed result
    if rest.isEmpty then ended ending else stages p tested rest output

def roundLimit : Nat := 0x40000000

def execute (p : Powers) (tested : Bool) : Command → Act Nat
  | .nothing => return 0
  | .simple line assignments words redirections =>
    simple p tested line assignments words redirections
  | .pipeline commands => stages p tested commands none
  | .aside command => do
    startJob command
    return 0
  | .negation command => do return if (← p.run true command) = 0 then 1 else 0
  | .both first second => do
    let status ← p.run true first
    if status = 0 then p.run tested second else return status
  | .either first second => do
    let status ← p.run true first
    if status = 0 then return status else p.run tested second
  | .sequence first second => do
    discard (p.run tested first)
    p.run tested second
  | .choice condition yes no => do
    if (← p.run true condition) = 0 then p.run tested yes else p.run tested no
  | .loop negative condition body =>
    inLoop (rounds p negative condition body tested roundLimit 0)
  | .each line name words body => do
    within fun s => { s with line := line }
    let words ← words.mapM (Expansion.fields p)
    inLoop (eachRound p name body tested words.flatten 0)
  | .selection line subject arms => do
    within fun s => { s with line := line }
    select p tested (← Expansion.text p subject) arms
  | .redirected line command redirections => do
    within fun s => { s with line := line }
    let goals ← Streams.expanded p redirections
    Streams.restoring do
      match ← caught (Streams.redirect goals) with
      | .error .fault => return 2
      | result =>
        resumed result
        p.run tested command
  | .apart line command redirections => do
    within fun s => { s with line := line }
    let goals ← Streams.expanded p redirections
    let body : Act Nat := Streams.restoring do
      Streams.redirect goals
      p.run tested command
    ended (← subshell p body)
  | .function name body => do
    within fun s => { s with
      functions := (name, body) :: s.functions.filter (·.1 ≠ name) }
    return 0

/-- Whether a failure of the command can end a shell that ends with the first one. -/
def isDecisive : Command → Bool
  | .simple .. | .pipeline _ | .aside _ | .apart .. => true
  | _ => false

/-- Runs a command, then the traps of the signals that have come. -/
def run (p : Powers) (tested : Bool) (command : Command) : Act Nat := do
  if ← isSet 'n' then return (← get).status
  let status ← execute p tested command
  match command with
  | .nothing => pure ()
  | _ => setStatus status
  runTraps p
  if isDecisive command ∧ ¬ tested ∧ status ≠ 0 ∧ (← isSet 'e') then throw .exit
  else return status

/-! ## Texts -/

/-- Shows the lines that were read, if that is wanted. -/
def showLines (before after : Reader) : Act Unit := do
  if ← isSet 'v' then
    let count := before.rest.length - after.rest.length
    doing (Doing.complain (String.ofList (before.rest.take count)))

/-- The commands of a text, line by line, from a status on. -/
def lines (p : Powers) (tested : Bool) : Nat → Reader → Nat → Act Nat
  | 0, _, status => return status
  | fuel + 1, r, status => do
    let r := { r with documents := (← scope).documents }
    let (result, after) := (Reading.line?.run).run r
    showLines r after
    within fun s => { s with documents := after.documents, reached := after.line }
    match result with
    | .error complaint =>
      within fun s => { s with line := complaint.line }
      fail ("Syntax error: " ++ complaint.reason)
    | .ok none => return status
    | .ok (some command) =>
      match command with
      | .nothing => lines p tested fuel after status
      | _ =>
        lines p tested fuel after (← p.run tested command)

/-- The commands of a text, in which zero bytes are passed over. -/
def text (p : Powers) (tested : Bool) (t : Octets) : Act Nat := do
  let reached := (← scope).reached
  let r := Reader.ofChars (t.toList.filter (· ≠ '\x00')) #[]
  let result ← caught (lines p tested (t.length + 2) r 0)
  within fun s => { s with reached := reached }
  resumed result

/-! ## All together -/

/-- Commands that are deeper in each other than that end the shell: its memory is used up. -/
def exhausted : Powers where
  run _ _ := throw (.killed 11)
  output _ := throw (.killed 11)
  text _ _ := throw (.killed 11)
  launch _ _ := return .error .linkLoop

def powers (launch : Launcher) : Nat → Powers
  | 0 => exhausted
  | depth + 1 => {
      run := fun tested command => run (powers launch depth) tested command
      output := fun command => outputOf (powers launch depth) command
      text := fun tested t => text (powers launch depth) tested t
      launch := launch }

end Execution

end PerfGate.Script
