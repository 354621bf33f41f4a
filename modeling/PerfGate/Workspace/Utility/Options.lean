import PerfGate.Workspace.Process
import PerfGate.Json.Value

/-!
# Options and operands

The words of a utility are options, which start with a dash and may have an argument, and
operands, in any order; two dashes end the options. A long option has the meaning of a letter.
-/

set_option autoImplicit false

namespace PerfGate.Utility

/-- A program on the words after its name; it comes to a status. -/
abbrev Tool := List Octets → Doing Nat

/-- The options of a utility: the letters, those with an argument before a colon, the long
names of letters, the status for a wrong use, and whether options can follow operands. -/
structure Usage where
  letters : Octets
  long : List (Octets × Char)
  status : Nat
  mixed : Bool

structure Given where
  options : List (Char × Octets)
  operands : List Octets

namespace Given

def has (g : Given) (c : Char) : Bool :=
  g.options.any fun o => o.1 = c

def last? (g : Given) (c : Char) : Option Octets :=
  (g.options.reverse.find? fun o => o.1 = c).map (·.2)

def all (g : Given) (c : Char) : List Octets :=
  (g.options.filter fun o => o.1 = c).map (·.2)

def adding (g : Given) (c : Char) (argument : Octets) : Given :=
  { g with options := (c, argument) :: g.options }

def operand (g : Given) (word : Octets) : Given :=
  { g with operands := word :: g.operands }

end Given

/-! ## Paths in messages -/

def invisible (c : Char) : Octets :=
  match c with
  | '\x07' => "\\a"
  | '\x08' => "\\b"
  | '\x0c' => "\\f"
  | '\n' => "\\n"
  | '\r' => "\\r"
  | '\t' => "\\t"
  | '\x0b' => "\\v"
  | c =>
    let digits := Nat.toDigits 8 c.toNat
    "\\" ++ String.ofList (List.replicate (3 - digits.length) '0' ++ digits)

def isInvisible (c : Char) : Bool := c < ' ' || '~' < c

def quoted (s : Octets) : Octets :=
  "'" ++ String.join (s.toList.map shown) ++ "'"
where
  shown (c : Char) : Octets :=
    if c = '\\' ∨ c = '\x27' then "\\" ++ String.singleton c
    else if isInvisible c then invisible c
    else String.singleton c

/-- The inside of single quotes; characters that cannot be seen have quotes of their own. -/
def insideQuotes : Bool → List Char → Octets
  | _, [] => ""
  | apart, c :: rest =>
    if isInvisible c then
      (if apart then "" else "'$'") ++ invisible c ++ insideQuotes true rest
    else
      (if apart then "\x27\x27" else "") ++
        (if c = '\x27' then "'\\''" else String.singleton c) ++ insideQuotes false rest

def isHarmless (c : Char) : Bool :=
  c.isAlphanum || c ∈ ['%', '+', ',', '-', '.', '/', ':', '@', '_', ']', ' ', '\x27']

def quotedPath (s : Octets) : Octets :=
  if s.toList.contains '\x27' ∧ s.toList.all isHarmless then "\"" ++ s ++ "\""
  else "'" ++ insideQuotes false s.toList ++ "'"

def needsQuotes (s : Octets) : Bool :=
  match s.toList with
  | [] => true
  | [c] => ¬ isPlain c
  | c :: rest => ¬ isPlain c && c ∉ inner || rest.any fun c => ¬ isPlain c && c ∉ inner && c ∉ later
where
  isPlain (c : Char) : Bool := isHarmless c && c ∉ [' ', ':', '\x27']
  inner : List Char := ['\x7b', '\x7d']
  later : List Char := ['#', '~']

def pathShown (s : Octets) : Octets :=
  if needsQuotes s then quotedPath s else s

/-! ## Messages -/

/-- Says something about what is wrong, after the name of the program. -/
def tell (message : Octets) : Doing Unit := do
  Doing.complain ((← get).called ++ ": " ++ message ++ "\n")

def tellHelp : Doing Unit := do
  Doing.complain ("Try '" ++ (← get).called ++ " --help' for more information.\n")

def tellWrongUse (message : Octets) : Doing Unit := do
  tell message
  tellHelp

def between (s : Octets) : Octets := "'" ++ s ++ "'"

/-- Whether a letter needs an argument; nothing if it is no option. -/
def needs? (u : Usage) (c : Char) : Option Bool :=
  match u.letters.toList.dropWhile (· ≠ c) with
  | [] => none
  | _ :: ':' :: _ => some true
  | _ => if c = ':' then none else some false

/-- The options in one word of letters, with the words after it. -/
def letters (u : Usage) : List Char → List Octets →
    Except Octets (List (Char × Octets) × List Octets)
  | [], words => .ok ([], words)
  | c :: rest, words =>
    match needs? u c with
    | none => .error ("invalid option -- " ++ between (String.singleton c))
    | some false => do
      let (found, words) ← letters u rest words
      return ((c, "") :: found, words)
    | some true =>
      if ¬ rest.isEmpty then .ok ([(c, String.ofList rest)], words)
      else
        match words with
        | argument :: words => .ok ([(c, argument)], words)
        | [] => .error ("option requires an argument -- " ++ between (String.singleton c))

/-- The option that a long name stands for, with the words after it. -/
def longOption (u : Usage) (word : Octets) (words : List Octets) :
    Except Octets ((Char × Octets) × List Octets) :=
  let name := String.ofList (word.toList.takeWhile (· ≠ '='))
  let argument := word.toList.drop (name.length + 1)
  match u.long.lookup name with
  | none => .error ("unrecognized option " ++ between ("--" ++ word))
  | some c =>
    if needs? u c = some true then
      if name.length < word.length then .ok ((c, String.ofList argument), words)
      else
        match words with
        | argument :: words => .ok ((c, argument), words)
        | [] => .error ("option " ++ between ("--" ++ name) ++ " requires an argument")
    else .ok ((c, ""), words)

def parse (u : Usage) : Nat → List Octets → Except Octets Given
  | 0, words => .ok ⟨[], words⟩
  | _, [] => .ok ⟨[], []⟩
  | fuel + 1, word :: rest =>
    match word.toList with
    | ['-', '-'] => .ok ⟨[], rest⟩
    | '-' :: '-' :: name => do
      let (option, rest) ← longOption u (String.ofList name) rest
      return (← parse u fuel rest).adding option.1 option.2
    | '-' :: c :: more => do
      let (found, rest) ← letters u (c :: more) rest
      let g ← parse u fuel rest
      return { g with options := found ++ g.options }
    | _ =>
      if u.mixed then do return (← parse u fuel rest).operand word else .ok ⟨[], word :: rest⟩

def utility (u : Usage) (body : Given → Doing Nat) : Tool := fun words => do
  match parse u (words.length + 1) words with
  | .ok given => body given
  | .error message =>
    tellWrongUse message
    return u.status

/-- Tells what is wrong, and comes to a status. -/
def failing (message : Octets) (status : Nat) : Doing Nat := do
  tell message
  return status

def misused (message : Octets) (status : Nat) : Doing Nat := do
  tellWrongUse message
  return status

/-- Writes a text; the status says whether that was possible. -/
def output (text : Octets) : Doing Nat := do
  match ← Doing.write 1 text with
  | .ok _ => return 0
  | .error cause => failing ("write error: " ++ cause.reason) 1

/-! ## Inputs -/

/-- The text behind an operand; a dash is the input. -/
def input (operand : Octets) : Doing (Except FileFault Octets) :=
  if operand = "-" then Doing.read 0 .all else Doing.readPath operand

def operandsOrInput (g : Given) : List Octets :=
  if g.operands.isEmpty then ["-"] else g.operands

/-- Does something with each input that can be read, and tells of the others. -/
def eachInput (operands : List Octets)
    (fault : Octets → FileFault → Octets) (body : Octets → Octets → Doing Nat) :
    Doing Nat := do
  let statuses ← operands.mapM fun operand => do
    match ← input operand with
    | .ok text => body operand text
    | .error cause =>
      tell (fault operand cause)
      return 1
  return statuses.foldl max 0

def plainFault (operand : Octets) (cause : FileFault) : Octets :=
  operand ++ ": " ++ cause.reason

def shownFault (operand : Octets) (cause : FileFault) : Octets :=
  plainFault (pathShown operand) cause

/-- The texts of all inputs that can be read, and the status. -/
def joinedInputs (operands : List Octets)
    (fault : Octets → FileFault → Octets) : Doing (Octets × Nat) := do
  let parts ← operands.mapM fun operand => do
    match ← input operand with
    | .ok text => return (text, 0)
    | .error cause =>
      tell (fault operand cause)
      return ("", 1)
  return (String.join (parts.map (·.1)), (parts.map (·.2)).foldl max 0)

/-- The lines of a text without their ends. -/
def linesOf (text : Octets) : List Octets :=
  let parts := text.splitOn "\n"
  if parts.getLast? = some "" then parts.dropLast else parts

def ofLines (lines : List Octets) : Octets :=
  String.join (lines.map (· ++ "\n"))

def natural? (s : Octets) : Option Nat :=
  if ¬ s.isEmpty ∧ s.toList.all Char.isDigit then some (Json.digitsValue s.toList) else none

end PerfGate.Utility
