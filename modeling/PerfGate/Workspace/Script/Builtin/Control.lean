import PerfGate.Workspace.Script.Builtin.Words

/-!
# Commands on the course of a script

Leaving loops, functions and the shell, running the commands of a text or of a file, and what
has to do with signals and jobs.
-/

set_option autoImplicit false

namespace PerfGate.Script.Builtin

open Act

/-! ## Leaving -/

def statusGiven (words : List Octets) : Act Nat := do
  match words with
  | word :: _ => natural word
  | [] => return (← get).status

def exiting : Body := fun words => do
  setStatus ((← statusGiven words) % 256)
  throw .exit

def returning : Body := fun words => do
  setStatus (← statusGiven words)
  throw .back

/-- Leaves so many loops, or goes on with the next round of the last of them. -/
def leaving (again : Bool) : Body := fun words => do
  let n ← match words with
    | word :: _ => natural word
    | [] => pure 1
  if n = 0 then fail "Illegal number: 0"
  else
    let depth := min n (← scope).loops
    if depth = 0 then return 0
    else
      setStatus 0
      throw (if again then .round depth else .loop depth)

/-! ## Texts -/

def evaluating (p : Powers) (tested : Bool) : Body := fun words =>
  if words.isEmpty then pure 0 else p.text tested (Expansion.joinedBy " " words)

/-- The path of a file of commands: as it is, or below one of the directories. -/
def sourcePath (name : Octets) (directories : List Octets) : Act (Option Octets) := do
  if name.toList.contains '/' then return some name
  else
    let process := (← get).process
    return (directories.map fun d => if d.isEmpty then name else d ++ "/" ++ name).find? fun path =>
      match process.tree.find process.home path with
      | .ok node => ¬ process.tree.isDirectory node
      | .error _ => false

/-- Runs the commands of a file here; a function's way of leaving ends them. -/
def sourcing (p : Powers) (directories : List Octets) : Body := fun words =>
  match words with
  | [] => pure 0
  | name :: _ => do
    match ← sourcePath name directories with
    | none => fail (name ++ ": not found")
    | some path =>
      match ← doing (Doing.readPath path) with
      | .error .isDirectory => return 0
      | .error cause => fail ("cannot open " ++ name ++ ": " ++ reason cause)
      | .ok text =>
        let speaker := (← scope).speaker
        within fun s => { s with speaker := some path }
        let result ← caught (p.text false text)
        within fun s => { s with speaker := speaker }
        match result with
        | .error .back => return (← get).status
        | result => resumed result
where
  reason (cause : FileFault) : Octets :=
    match cause with
    | .notFound | .notDirectory => "No such file"
    | cause => cause.reason

/-! ## Signals -/

def trapsText : Act Octets := do
  let traps := (← scope).traps
  let lines := (List.range signalCount).filterMap fun n =>
    (traps.lookup n).map fun action =>
      "trap -- " ++ quoted action ++ " " ++ signalName n ++ "\n"
  return String.join lines

def setTrap (signal : Nat) (action : Option Octets) : Act Unit :=
  within fun s =>
    let others := s.traps.filter (·.1 ≠ signal)
    { s with traps := match action with
        | some a => others ++ [(signal, a)]
        | none => others }

def setTraps (action : Option Octets) : List Octets → Act Nat
  | [] => return 0
  | word :: rest => do
    match signal? 0 word with
    | none =>
      doing (Doing.complain ("trap: " ++ word ++ ": bad trap\n"))
      return 1
    | some signal =>
      setTrap signal action
      setTraps action rest

def trapping : Body := fun words => do
  let (_, words) ← options "" words
  match words with
  | [] => print (← trapsText)
  | [word] => setTraps none [word]
  | action :: rest =>
    if (signal? 0 action).isSome then setTraps none (action :: rest)
    else setTraps (if action = "-" then none else some action) rest

def killUsage {α : Type} : Act α :=
  fail ("Usage: kill [-s sigspec | -signum | -sigspec] [pid | job]... or\n" ++
    "kill -l [exitstatus]")

def killJob (signal number : Nat) : Act Nat := do
  if (← get).jobs.any fun job => job.number = number ∧ job.waiting.isSome then
    modify fun s => { s with
      jobs := s.jobs.map fun job =>
        if job.number = number ∧ signal ∉ idleSignals then
          { job with waiting := none, status := killedStatus signal }
        else job }
    return 0
  else
    warn "No such process\n"
    return 1

/-- Sends a signal to a process: this shell, the one above it, or a job. -/
def send (signal : Nat) (word : Octets) : Act Nat := do
  let number ← match word.toList with
    | '-' :: digits => natural (String.ofList digits)
    | '%' :: digits => pure (firstJob + (Json.digitsValue digits - 1))
    | _ => natural word
  if number = Expansion.shellNumber ∨ number = 0 then
    if (← scope).subshell then
      if signal ∈ idleSignals then return 0 else throw (.felled signal)
    else
      receive signal
      return 0
  else killJob signal number

def sendAll (signal : Nat) (words : List Octets) : Act Nat := do
  let statuses ← words.mapM (send signal)
  return statuses.foldl max 0

def signalList : Octets :=
  "0\n" ++ String.join ((List.range signalCount).drop 1 |>.map fun n => signalName n ++ "\n")

/-- The name of the signal that a status tells of. -/
def statusSignal (word : Octets) : Act Nat := do
  let n ← natural word
  let n := if 128 < n then n - 128 else n
  if 0 < n ∧ n < signalCount then print (signalName n ++ "\n")
  else fail ("invalid signal number or exit status: " ++ word)

def namedSignal (word : Octets) : Act Nat :=
  match signal? 0 word with
  | some n => pure n
  | none => fail ("invalid signal number or name: " ++ word)

def sendOrUsage (signal : Nat) (words : List Octets) : Act Nat :=
  if words.isEmpty then killUsage else sendAll signal words

def killing : Body := fun words => do
  match words with
  | [] => killUsage
  | first :: rest =>
    match first.toList with
    | '-' :: name =>
      match signal? 0 (String.ofList name) with
      | some signal => sendOrUsage signal rest
      | none =>
        let (found, words) ← options "ls:" words
        if found.any fun o => o.1 = 'l' then
          match words with
          | [] => print signalList
          | word :: _ => statusSignal word
        else
          match found.find? fun o => o.1 = 's' with
          | some (_, name) => sendOrUsage (← namedSignal (name.getD "")) words
          | none => sendOrUsage 15 words
    | _ => sendAll 15 words

/-! ## Jobs -/

def statusOfJob (word : Octets) : Act Nat := do
  let number ← match word.toList with
    | '%' :: digits => pure (firstJob + (Json.digitsValue digits - 1))
    | _ => natural word
  return ((← get).jobs.find? fun job => job.number = number).map (·.status) |>.getD 127

def waiting (p : Powers) : Body := fun words => do
  settleJobs p
  let statuses ← words.mapM statusOfJob
  return statuses.getLast?.getD 0

end PerfGate.Script.Builtin
