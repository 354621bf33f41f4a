import PerfGate.Workspace.Octets

/-!
# Scripts

A script is a series of commands. The words of a command are made of pieces: texts, of which
some are quoted, and expansions of parameters, of outputs and of sums. The text of a document
that a redirection announces comes later than the command, so a redirection has only its
number in the table of documents.
-/

set_option autoImplicit false

namespace PerfGate.Script

/-- What takes the place of a parameter that is not set. -/
inductive Absence where
  /-- The word. -/
  | word
  /-- The word, but only if the parameter is set. -/
  | opposite
  /-- The word, which the parameter is set to. -/
  | assigned
  /-- Nothing: the word says what is wrong. -/
  | fault
  deriving DecidableEq, Repr

mutual

inductive Piece where
  | text (s : Octets) (quoted : Bool)
  | parameter (name : Octets) (use : Use) (quoted : Bool)
  /-- Every argument as a word of its own. -/
  | every
  | output (command : Command) (quoted : Bool)
  | sum (expression : List Piece) (quoted : Bool)

inductive Use where
  | value
  | length
  /-- What no parameter can be used for. -/
  | faulty
  /-- For a parameter that is not set, or also for an empty one. -/
  | absent (absence : Absence) (evenEmpty : Bool) (word : List Piece)
  /-- The value without what matches the pattern at one of its ends. -/
  | without (atEnd longest : Bool) (pattern : List Piece)

inductive Target where
  | input (path : List Piece)
  | output (path : List Piece)
  /-- Output that replaces even a file that is kept. -/
  | forced (path : List Piece)
  | appended (path : List Piece)
  | both (path : List Piece)
  | same (number : Nat)
  | closed
  /-- The stream whose number the word expands to. -/
  | named (word : List Piece)
  | document (id : Nat)

inductive Redirection where
  | mk (number : Nat) (target : Target)

inductive Command where
  | nothing
  | simple (line : Nat) (assignments words : List (List Piece)) (redirections : List Redirection)
  | pipeline (commands : List Command)
  | aside (command : Command)
  | negation (command : Command)
  | both (first second : Command)
  | either (first second : Command)
  | sequence (first second : Command)
  | choice (condition yes no : Command)
  | loop (negative : Bool) (condition body : Command)
  | each (line : Nat) (name : Octets) (words : List (List Piece)) (body : Command)
  | selection (line : Nat) (subject : List Piece) (arms : List (List (List Piece) × Command))
  | redirected (line : Nat) (command : Command) (redirections : List Redirection)
  | apart (line : Nat) (command : Command) (redirections : List Redirection)
  | function (name : Octets) (body : Command)

end

instance : Inhabited Command := ⟨.nothing⟩

abbrev Word := List Piece

/-- What keeps a text from being a script, and the line where that shows. -/
structure Complaint where
  line : Nat
  reason : Octets
  deriving DecidableEq, Repr

/-! ## Characters -/

def isNameStart (c : Char) : Bool := c.isAlpha || c = '_'

def isNameChar (c : Char) : Bool := c.isAlphanum || c = '_'

def isSpecial (c : Char) : Bool := c ∈ ['@', '*', '#', '?', '$', '!', '-'] || c.isDigit

def isName (s : Octets) : Bool :=
  match s.toList with
  | c :: rest => isNameStart c && rest.all isNameChar
  | [] => false

/-- The name, if an unquoted text starts by setting it. -/
def assigned? : Word → Option (Octets × Word)
  | .text s false :: rest =>
    let name := String.ofList (s.toList.takeWhile isNameChar)
    match s.toList.dropWhile isNameChar with
    | '=' :: value =>
      if isName name then some (name, .text (String.ofList value) false :: rest) else none
    | _ => none
  | _ => none

def assignment? (s : Octets) : Option (Octets × Octets) :=
  let name := String.ofList (s.toList.takeWhile isNameChar)
  match s.toList.dropWhile isNameChar with
  | '=' :: value => if isName name then some (name, String.ofList value) else none
  | _ => none

end PerfGate.Script
