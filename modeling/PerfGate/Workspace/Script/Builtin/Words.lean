import PerfGate.Workspace.Script.Subshell

/-!
# Words of built-in commands

A built-in command takes options from the front of its words, reads numbers in them and prints
texts. What cannot be printed is told, and the status is then one.
-/

set_option autoImplicit false

namespace PerfGate.Script.Builtin

abbrev Body := List Octets → Act Nat

def letter (c : Char) : Octets := String.singleton c

/-- Prints a text for a command that ends with this status. -/
def printWith (status : Nat) (text : Octets) : Act Nat := do
  match ← Act.doing (Doing.write 1 text) with
  | .ok _ => return status
  | .error _ =>
    Act.warn ((← Act.scope).speaker.getD "" ++ ": I/O error")
    return status ||| 1

def print (text : Octets) : Act Nat :=
  printWith 0 text

def natural (word : Octets) : Act Nat :=
  match number? word with
  | some n => pure n
  | none => Act.fail ("Illegal number: " ++ word)

/-- The options of one word, and whether the last of them still needs its argument. -/
def lettersOf (allowed : Octets) : List Char →
    Except Char (List (Char × Option Octets) × Option Char)
  | [] => .ok ([], none)
  | c :: rest =>
    match allowed.toList.dropWhile (· ≠ c) with
    | [] => .error c
    | _ :: ':' :: _ =>
      if rest.isEmpty then .ok ([], some c) else .ok ([(c, some (String.ofList rest))], none)
    | _ => do
      let (options, open?) ← lettersOf allowed rest
      return ((c, none) :: options, open?)

def options (allowed : Octets) : List Octets → Act (List (Char × Option Octets) × List Octets)
  | [] => return ([], [])
  | word :: rest =>
    match word.toList with
    | ['-'] => return ([], word :: rest)
    | ['-', '-'] => return ([], rest)
    | '-' :: letters =>
      match lettersOf allowed letters with
      | .error c => Act.fail ("Illegal option -" ++ letter c)
      | .ok (found, none) => do
        let (more, words) ← options allowed rest
        return (found ++ more, words)
      | .ok (found, some c) =>
        match rest with
        | [] => Act.fail ("No arg for -" ++ letter c ++ " option")
        | argument :: rest => do
          let (more, words) ← options allowed rest
          return (found ++ (c, some argument) :: more, words)
    | _ => return ([], word :: rest)

/-- A text between quotes that give it back when it is read. -/
def quoted (s : Octets) : Octets :=
  "'" ++ String.join (s.toList.map fun c => if c = '\x27' then "'\"'\"'" else letter c) ++ "'"

end PerfGate.Script.Builtin
