import PerfGate.Workspace.Script.Expansion

/-!
# Subshells, signals and jobs

A subshell starts with the scope of its shell and leaves its tree and streams. A signal that a
shell sends to itself ends it, unless there is a trap for it, which waits for the end of the
command, or the signal means nothing. A job runs when it is waited for or when its shell ends.
-/

set_option autoImplicit false

namespace PerfGate.Script

open Act

/-! ## Signals -/

def signalNames : List (Nat × Octets) := [
  (0, "EXIT"), (1, "HUP"), (2, "INT"), (3, "QUIT"), (4, "ILL"), (5, "TRAP"), (6, "ABRT"),
  (7, "BUS"), (8, "FPE"), (9, "KILL"), (10, "USR1"), (11, "SEGV"), (12, "USR2"), (13, "PIPE"),
  (14, "ALRM"), (15, "TERM"), (16, "16"), (17, "CHLD"), (18, "CONT"), (19, "STOP"),
  (20, "TSTP"), (21, "TTIN"), (22, "TTOU"), (23, "URG"), (24, "XCPU"), (25, "XFSZ"),
  (26, "VTALRM"), (27, "PROF"), (28, "WINCH"), (29, "IO"), (30, "PWR"), (31, "SYS"),
  (32, "32"), (33, "33")]

/-- The signals from the first of real time to the last one. -/
def realTimeName (n : Nat) : Octets :=
  if n = 34 then "RTMIN"
  else if n = 64 then "RTMAX"
  else if n < 50 then "RTMIN+" ++ toString (n - 34)
  else "RTMAX-" ++ toString (64 - n)

def signalName (n : Nat) : Octets :=
  (signalNames.lookup n).getD (realTimeName n)

/-- How many numbers signals have, zero included. -/
def signalCount : Nat := 65

def upper (s : Octets) : Octets := String.ofList (s.toList.map Char.toUpper)

/-- The number of a signal that is named or numbered, from `least` on. -/
def signal? (least : Nat) (s : Octets) : Option Nat :=
  match digits? s with
  | some n => if least ≤ n ∧ n < signalCount then some n else none
  | none =>
    (List.range signalCount).find? fun n => least ≤ n ∧ signalName n = upper s

/-- Signals that do nothing to a process that does not ask for them. -/
def idleSignals : List Nat := [0, 17, 18, 19, 20, 21, 22, 23, 28]

def lethal : List Nat := [9, 19]

def trapFor (signal : Nat) : Act (Option Octets) := do
  let traps := (← scope).traps
  return if signal ∈ lethal then none else traps.lookup signal

def receive (signal : Nat) : Act Unit := do
  match ← trapFor signal with
  | some action =>
    if ¬ action.isEmpty then modify fun s => { s with signals := s.signals ++ [signal] }
  | none =>
    if signal ∉ idleSignals ∧ signal ∉ (← scope).ignored then throw (.killed signal)

def runTraps (p : Powers) : Act Unit := do
  let s ← get
  if ¬ s.signals.isEmpty then
    modify fun s => { s with signals := [] }
    s.signals.forM fun signal => do
      match ← trapFor signal with
      | some action =>
        let before := (← get).status
        discard (p.text false action)
        setStatus before
      | none => return ()

/-! ## The end of a shell -/

/-- The trap for the end, which may change the status by ending the shell again. -/
def runLastTrap (p : Powers) : Act Unit := do
  match (← scope).traps.lookup 0 with
  | none => return ()
  | some action =>
    within fun s => { s with traps := s.traps.filter (·.1 ≠ 0) }
    let before := (← get).status
    match ← caught (p.text false action) with
    | .error .exit | .error .fault => return ()
    | .error (.killed signal) => throw (.killed signal)
    | .error (.replaced ending) => throw (.replaced ending)
    | _ => setStatus before

/-! ## Jobs -/

/-- What a job starts with instead of the input of its shell. -/
def withoutInput (process : Process) : Process :=
  let (stream, process) := process.openStream (.device .null)
  process.assign 0 stream

def asSubshell (before : Scope) (home : Nat) (descriptors : List (Nat × Nat))
    (act : Act Exit) : Act Exit := fun s =>
  let child := { s with
    process := { s.process with home := home, descriptors := descriptors }
    scope := { before with
      subshell := true
      loops := 0
      traps := before.traps.filter (·.2.isEmpty) }
    jobs := []
    signals := [] }
  let (result, child) := act.run child
  let after := { s with process := s.process.after child.process }
  match result with
  | .ok ending => (.ok ending, after)
  | .error (.killed signal) => (.ok (.signal signal), after)
  | .error (.felled signal) => (.error (.felled signal), after)
  | .error _ => (.ok (.status child.status), after)

/-- A signal that ended a shell above this one comes to that one. -/
def passedOn (act : Act Exit) : Act Exit := do
  match ← caught act with
  | .error (.felled signal) =>
    if (← scope).subshell then throw (.felled signal)
    else
      receive signal
      return .status (killedStatus signal)
  | result => resumed result

mutual

def concluded (p : Powers) : Nat → Act Nat → Act Exit
  | 0, _ => return .status 2
  | fuel + 1, act => do
    match ← caught act with
    | .error (.killed signal) => return .signal signal
    | .error (.felled signal) => throw (.felled signal)
    | .error (.replaced ending) =>
      runJobs p fuel
      return ending
    | result =>
      match result with
      | .ok status => setStatus status
      | .error _ => pure ()
      match ← caught (runLastTrap p) with
      | .error (.killed signal) => return .signal signal
      | .error (.replaced ending) => return ending
      | _ =>
        runJobs p fuel
        return .status (← get).status

def inSubshell (p : Powers) : Nat → Act Nat → Act Exit
  | 0, _ => return .status 2
  | fuel + 1, act => do
    let s ← get
    passedOn (asSubshell s.scope s.process.home s.process.descriptors (concluded p fuel act))

def runJob (p : Powers) : Nat → Job → Act Job
  | 0, job => return job
  | fuel + 1, job =>
    match job.waiting with
    | none => return job
    | some (before, home, descriptors, command) => do
      let act : Act Nat := do
        modify fun s => { s with process := withoutInput s.process }
        p.run false command
      let ending ← passedOn (asSubshell before home descriptors (concluded p fuel act))
      return { job with waiting := none, status := statusOf ending }

def runJobs (p : Powers) : Nat → Act Unit
  | 0 => return ()
  | fuel + 1 => do
    let jobs ← (← get).jobs.mapM fun job => runJob p fuel job
    modify fun s => { s with jobs := jobs }

end

def shellDepth : Nat := 200

def subshell (p : Powers) (act : Act Nat) : Act Exit :=
  inSubshell p shellDepth act

def settleJobs (p : Powers) : Act Unit :=
  runJobs p shellDepth

def firstJob : Nat := 100

def startJob (command : Command) : Act Unit :=
  modify fun s =>
    let number := firstJob + s.jobs.length
    let job : Job :=
      { number := number
        waiting := some (s.scope, s.process.home, s.process.descriptors, command)
        status := 0 }
    { s with jobs := s.jobs ++ [job] }

/-- What a command writes, without the ends of its last lines. -/
def outputOf (p : Powers) (command : Command) : Act Octets := do
  let s ← get
  let (channel, process) := s.process.openStream (.channel "")
  let before := process.descriptors
  set { s with process := process.assign 1 channel }
  let result ← caught (subshell p (p.run false command))
  modify fun s => { s with process := { s.process with descriptors := before } }
  let status ← ended (← resumed result)
  modify fun s => { s with outputStatus := status }
  let text := ((← get).process.held channel).toList.filter (· ≠ '\x00')
  return String.ofList (text.reverse.dropWhile (· = '\n')).reverse

end PerfGate.Script
