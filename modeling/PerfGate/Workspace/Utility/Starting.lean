import PerfGate.Workspace.Launch
import PerfGate.Workspace.Utility.Files
import PerfGate.Workspace.Utility.Numbers
import PerfGate.Workspace.Utility.Search
import PerfGate.Workspace.Utility.Texts

/-!
# Utilities that start programs

A program in another environment, with words from the input, or with a limit; and the table of
all programs that every machine has.
-/

set_option autoImplicit false

namespace PerfGate.Utility

/-! ## Environments -/

structure Surroundings where
  environment : List (Octets × Octets)
  words : List Octets

def settings : List (Octets × Octets) → List Octets → Surroundings
  | environment, [] => ⟨environment, []⟩
  | environment, word :: rest =>
    match word.toList.dropWhile (· ≠ '=') with
    | '=' :: value =>
      let name := String.ofList (word.toList.takeWhile (· ≠ '='))
      settings (environment.filter (·.1 ≠ name) ++ [(name, String.ofList value)]) rest
    | _ => ⟨environment, word :: rest⟩

def startOr (launch : Launcher) (mark : Octets → Octets) (words : List Octets) : Doing Exit := do
  let program := words.head?.getD ""
  match ← Launch.byName launch program words with
  | .ok ending => return ending
  | .error cause =>
    tell (mark program ++ ": " ++ cause.reason)
    return .status (if cause = .notFound then 127 else 126)

/-- What to do about words that are not apart from each other. -/
def splitHint : Octets := "use -[v]S to pass options in shebang lines"

def env (launch : Launcher) : Program := fun words => do
  match parse ⟨"iu:C:0vS:", [("ignore-environment", 'i'), ("unset", 'u')], 125, false⟩
      (words.length + 1) (words.drop 1) with
  | .error message =>
    tell message
    if message = "invalid option -- ' '" then tell splitHint
    tellHelp
    return .status 125
  | .ok g =>
    let p ← get
    let empty := g.has 'i' || g.operands.head? = some "-"
    let operands := if g.operands.head? = some "-" then g.operands.drop 1 else g.operands
    let kept := if empty then [] else
      p.environment.filter fun (n, _) => ¬ (g.all 'u').contains n
    let split := (g.all 'S').flatMap fun s => (s.splitOn " ").filter (¬ ·.isEmpty)
    let s := settings kept (split ++ operands)
    if s.words.isEmpty then
      return .status (← output (ofLines (s.environment.map fun (n, v) => n ++ "=" ++ v)))
    else
      set { p with environment := s.environment }
      let ending ← startOr launch quoted s.words
      if ending = .status 127 ∧ (s.words.head?.getD "").toList.any Octets.isBlank then
        tell splitHint
      return ending

/-! ## Words from the input -/

/-- The words of a text; quotes and a backslash keep blanks in them. -/
def inputWords : Nat → List Char → Option (List Char) → List Octets
  | 0, _, _ => []
  | _, [], word => (word.map fun w => String.ofList w.reverse).toList
  | fuel + 1, c :: rest, word =>
    let w := word.getD []
    if c = ' ' ∨ c = '\t' ∨ c = '\n' then
      (word.map fun w => String.ofList w.reverse).toList ++ inputWords fuel rest none
    else if c = '\x27' ∨ c = '"' then
      let inside := rest.takeWhile (· ≠ c)
      inputWords fuel (rest.drop (inside.length + 1)) (some (inside.reverse ++ w))
    else
      match c, rest with
      | '\\', d :: rest => inputWords fuel rest (some (d :: w))
      | _, _ => inputWords fuel rest (some (c :: w))

def groupsOf (n : Nat) : Nat → List Octets → List (List Octets)
  | 0, _ => []
  | _, [] => []
  | fuel + 1, words => words.take n :: groupsOf n fuel (words.drop n)

/-- One status for those of all programs that were started. -/
def combined (endings : List Exit) : Nat :=
  let codes := endings.map fun
    | .status code => code
    | .signal _ => 125
  if codes.contains 127 then 127
  else if codes.contains 126 then 126
  else if codes.any (· ≠ 0) then 123
  else 0

def xargs (launch : Launcher) : Program := fun words => do
  match parse ⟨"0a:d:I:L:n:P:rt", [("null", '0'), ("max-args", 'n'),
      ("no-run-if-empty", 'r')], 1, false⟩ (words.length + 1) (words.drop 1) with
  | .error message =>
    tellWrongUse message
    return .status 1
  | .ok g =>
    let source := (g.last? 'a').getD "-"
    match ← input source with
    | .error cause =>
      let message := if source = "-" then "read error: " ++ cause.reason
        else "Cannot open input file " ++ quoted source ++ ": " ++ cause.reason
      return .status (← failing message 1)
    | .ok text =>
      let given := if g.has '0' then (text.splitOn "\x00").filter (¬ ·.isEmpty)
        else if g.has 'I' then ((linesOf text).map fun l => String.ofList
          (l.toList.dropWhile fun c => c = ' ' ∨ c = '\t')).filter (¬ ·.isEmpty)
        else inputWords (text.length + 1) text.toList none
      let command := if g.operands.isEmpty then ["echo"] else g.operands
      let calls := match g.last? 'I' with
        | some mark => given.map fun l => command.map fun (w : Octets) => w.replace mark l
        | none =>
          match (g.last? 'n').bind natural? with
          | some n => (groupsOf n (given.length + 1) given).map (command ++ ·)
          | none => if given.isEmpty ∧ g.has 'r' then [] else [command ++ given]
      let endings ← calls.mapM fun call =>
        Doing.apart (startOr launch id call)
      return .status (combined endings)

/-! ## Limits -/

def wrapper (letters : Octets) (skipped : Nat) (launch : Launcher) : Program :=
  fun words => do
    match parse ⟨letters, [], 125, false⟩ (words.length + 1) (words.drop 1) with
    | .error message =>
      tellWrongUse message
      return .status 125
    | .ok g =>
      let call := g.operands.drop skipped
      if call.isEmpty then return .status (← misused "missing operand" 125)
      else startOr launch (fun w => "failed to run command " ++ quoted w) call

def which (_ : Launcher) : Program := fun words => do
  let p ← get
  let directories := ((p.environment.lookup "PATH").getD Script.Lookup.defaultPath).splitOn ":"
  let found := (words.drop 1).filterMap fun name =>
    match Script.Lookup.inPath p name directories false with
    | .program path => some path
    | _ => none
  let status ← output (ofLines found)
  return .status (if found.length + 1 < words.length then 1 else status)

/-- A built-in command of the interpreter as a program of its own. -/
def builtIn (name : Octets) (launch : Launcher) : Program := fun words =>
  Script.Interpreter.program launch ("sh" :: "-c" :: (name ++ " \"$@\"") :: words)

/-! ## All programs -/

def plainly (u : Tool) (_ : Launcher) : Program := fun words => do
  return .status (← u (words.drop 1))

def utilities : List (String × Tool) := [
  ("basename", basename), ("cat", cat), ("chmod", chmod), ("cp", cp), ("cut", cut),
  ("date", fact "d:f:I:r:Rs:u" "Thu Jan  1 00:00:00 UTC 1970"), ("dirname", dirname),
  ("echo", echo), ("egrep", egrep), ("expr", expr), ("false", failingAlways),
  ("fgrep", fgrep), ("find", find), ("grep", grep), ("head", head),
  ("hostname", fact "aAbdfFiIsvyV" "localhost"), ("id", identity), ("ln", ln), ("ls", ls),
  ("mkdir", mkdir), ("mv", mv), ("nl", nl), ("nproc", fact "" "1"), ("printenv", printenv),
  ("readlink", readlink), ("rev", rev), ("rm", rm), ("rmdir", rmdir), ("sed", sed),
  ("seq", seq), ("sleep", sleep), ("sort", sort), ("sync", fact "df" ""), ("tac", tac),
  ("tail", tail), ("tee", tee), ("touch", touch), ("tr", tr), ("true", succeeding),
  ("uname", fact "asnrvmpio" "Linux"), ("uniq", uniq), ("wc", wc), ("whoami", fact "" "root")]

def starters : List (String × (Launcher → Program)) := [
  ("[", builtIn "["), ("bash", Script.Interpreter.program),
  ("dash", Script.Interpreter.program), ("env", env), ("nice", wrapper "n:" 0),
  ("nohup", wrapper "" 0), ("printf", builtIn "printf --"),
  ("sh", Script.Interpreter.program), ("test", builtIn "test"),
  ("timeout", wrapper "k:s:" 1), ("which", which), ("xargs", xargs)]

def provided : Launch.Provided :=
  utilities.map (fun (name, u) => (name, plainly u)) ++ starters

def launcher : Launcher :=
  Launch.start provided Launch.depth

end PerfGate.Utility
