import PerfGate.Workspace.Script.Reader

/-!
# Reading commands

A list of commands is read up to the end of its line at the outermost level, and else up to a
mark that can end it. One complete line of commands is read at a time, so what cannot be read
stops a script only when it is reached.
-/

set_option autoImplicit false

namespace PerfGate.Script

/-- Where a list of commands stands. -/
inductive Level where
  /-- At the outermost level: up to the end of the line. -/
  | line
  /-- Between marks, with at least one command. -/
  | body
  /-- Between marks, perhaps with nothing in it. -/
  | loose
  deriving DecidableEq, Repr

namespace Reading

def closers : List Octets :=
  [")", ";;", "do", "done", "elif", "else", "esac", "fi", "then", "\x7d"]

def closes : Token → Bool
  | .finish => true
  | .mark text => text ∈ closers
  | _ => false

def settle (t : Token) : Reading Unit := do
  discard (put t)

def nextToken (commands : Reading Command) (lineEnds keywords : Bool) : Reading Token := do
  let t ← next commands lineEnds keywords
  settle t
  return t

def expect (commands : Reading Command) (text : Octets) : Reading Unit := do
  if (← nextToken commands true false) ≠ .mark text then unexpected (some (marked text))

/-- The same where line ends mean nothing and words may be keywords. -/
def expectKeyword (commands : Reading Command) (text : Octets) : Reading Unit := do
  if (← nextToken commands false true) ≠ .mark text then unexpected (some (marked text))

/-! ## Redirections -/

def textOf : Piece → Octets
  | .text s _ => s
  | _ => ""

def sameAs (word : Word) : Target :=
  match digit? word with
  | some n => .same n
  | none =>
    match word with
    | [.text "-" false] => .closed
    | _ => .named word

def announce (stripped : Bool) (mark : Word) : Reading Target := modifyGet fun r =>
  let id := r.documents.size
  let a : Announced :=
    { id := id, mark := String.join (mark.map textOf), stripped := stripped,
      expands := ¬ r.quoted }
  (.document id,
    { r with documents := r.documents.push [], announced := r.announced ++ [a] })

def redirection (commands : Reading Command) (number : Nat) (a : Arrow) :
    Reading Redirection := do
  let literal := match a with
    | .document _ => true
    | _ => false
  settle (← written commands literal)
  let r ← get
  if r.token ≠ .word then unexpected none
  else
    let target ← match a with
      | .input => pure (.input r.word)
      | .output => pure (.output r.word)
      | .forced => pure (.forced r.word)
      | .appended => pure (.appended r.word)
      | .both => pure (.both r.word)
      | .same => pure (sameAs r.word)
      | .document stripped => announce stripped r.word
    return ⟨number, target⟩

def redirections (commands : Reading Command) : Nat → Bool → Reading (List Redirection)
  | 0, _ => unexpected none
  | fuel + 1, keywords => do
    match ← nextToken commands true keywords with
    | .arrow number a =>
      let r ← redirection commands number a
      return r :: (← redirections commands fuel false)
    | _ =>
      putBack
      return []

/-! ## Simple commands -/

/-- What of a simple command has been read, each in reverse. -/
structure Draft where
  assignments : List Word
  words : List Word
  redirections : List Redirection

def reserved : List Octets :=
  [".", ":", "break", "continue", "eval", "exec", "exit", "export", "local", "readonly",
    "return", "set", "shift", "times", "trap", "unset"]

def functionName (word : Word) : Reading Octets :=
  match word with
  | [.text s false] =>
    if isName s ∧ s ∉ reserved then pure s else fail "Bad function name"
  | _ => fail "Bad function name"

/-- The words of `for` when there are none: every argument. -/
def everyArgument : List Word := [[.every]]

def patterns (commands : Reading Command) : Nat → Reading (List Word)
  | 0 => unexpected none
  | fuel + 1 => do
    let word := (← get).word
    if (← nextToken commands true false) = .mark "|" then
      discard (nextToken commands true false)
      return word :: (← patterns commands fuel)
    else return [word]

def chosenWords (commands : Reading Command) : Nat → Reading (List Word)
  | 0 => unexpected none
  | fuel + 1 => do
    if (← nextToken commands true false) = .word then
      let word := (← get).word
      return word :: (← chosenWords commands fuel)
    else return []

def eachWords (commands : Reading Command) : Reading (List Word) := do
  if (← nextToken commands false true) = .mark "in" then
    let words ← chosenWords commands ((← remaining) + 2)
    let r ← get
    if r.token ≠ .lineEnd ∧ r.token ≠ .mark ";" then unexpected none
    else return words
  else
    if (← get).token ≠ .mark ";" then putBack
    return everyArgument

def loopName (commands : Reading Command) : Reading Octets := do
  let t ← nextToken commands true false
  let r ← get
  match r.word with
  | [.text s false] =>
    if t = .word ∧ isName s then return s else fail "Bad for loop variable"
  | _ => fail "Bad for loop variable"

def wrapped (line : Nat) (command : Command) (rs : List Redirection) : Command :=
  if rs.isEmpty then command
  else
    match command with
    | .apart line command _ => .apart line command rs
    | command => .redirected line command rs

/-! ## Commands -/

mutual

def list : Nat → Level → Reading Command
  | 0, _ => unexpected none
  | fuel + 1, level => listAfter fuel level (level = .loose) none

def listAfter : Nat → Level → Bool → Option Command → Reading Command
  | 0, _, _, _ => unexpected none
  | fuel + 1, level, mayEnd, before => do
    let inner := list fuel .loose
    match ← nextToken inner (level = .line) true with
    | .lineEnd =>
      documents inner
      return before.getD .nothing
    | .finish =>
      documents inner
      settle .finish
      putBack
      return before.getD .nothing
    | t =>
      putBack
      if mayEnd ∧ level ≠ .line ∧ closes t then return before.getD .nothing
      else
        let command ← chain fuel
        let t ← nextToken inner true false
        let command := if t = .mark "&" then .aside command else command
        let all := match before with
          | none => command
          | some first => .sequence first command
        match t with
        | .finish =>
          documents inner
          settle .finish
          putBack
          return all
        | .lineEnd =>
          putBack
          listAfter fuel level true (some all)
        | .mark "&" | .mark ";" => listAfter fuel level true (some all)
        | _ =>
          if level = .line then unexpected none
          else
            putBack
            return all

def chain : Nat → Reading Command
  | 0 => unexpected none
  | fuel + 1 => do
    let first ← pipeline fuel true true
    links fuel first

def links : Nat → Command → Reading Command
  | 0, _ => unexpected none
  | fuel + 1, first => do
    match ← nextToken (list fuel .loose) true false with
    | .mark "&&" => links fuel (.both first (← pipeline fuel false true))
    | .mark "||" => links fuel (.either first (← pipeline fuel false true))
    | _ =>
      putBack
      return first

def pipeline : Nat → Bool → Bool → Reading Command
  | 0, _, _ => unexpected none
  | fuel + 1, lineEnds, keywords => do
    let inner := list fuel .loose
    let negative := (← nextToken inner lineEnds keywords) = .mark "!"
    if ¬ negative then putBack
    let first ← command fuel true negative
    let command ← if (← nextToken inner true false) = .mark "|" then do
        let others ← stages fuel
        pure (.pipeline (first :: others))
      else pure first
    putBack
    return if negative then .negation command else command

def stages : Nat → Reading (List Command)
  | 0 => unexpected none
  | fuel + 1 => do
    let first ← command fuel false true
    if (← nextToken (list fuel .loose) true false) = .mark "|" then
      return first :: (← stages fuel)
    else return [first]

def command : Nat → Bool → Bool → Reading Command
  | 0, _, _ => unexpected none
  | fuel + 1, lineEnds, keywords => do
    let line := (← get).line
    let inner := list fuel .loose
    match ← nextToken inner lineEnds keywords with
    | .mark "if" =>
      let c ← choice fuel
      expect inner "fi"
      finished fuel line c
    | .mark "while" => looping fuel line false
    | .mark "until" => looping fuel line true
    | .mark "for" =>
      let name ← loopName inner
      let words ← eachWords inner
      expectKeyword inner "do"
      let body ← list fuel .body
      expect inner "done"
      finished fuel line (.each line name words body)
    | .mark "case" =>
      if (← nextToken inner true false) ≠ .word then unexpected (some "word")
      else
        let subject := (← get).word
        expectKeyword inner "in"
        let arms ← selectionArms fuel
        finished fuel line (.selection line subject arms)
    | .mark "(" =>
      let body ← list fuel .body
      expect inner ")"
      finished fuel line (.apart line body [])
    | .mark "\x7b" =>
      let body ← list fuel .body
      expect inner "\x7d"
      finished fuel line body
    | .word | .arrow .. =>
      putBack
      simple fuel (← get).line ⟨[], [], []⟩
    | _ => unexpected none

def finished : Nat → Nat → Command → Reading Command
  | 0, _, _ => unexpected none
  | fuel + 1, line, command => do
    return wrapped line command
      (← redirections (list fuel .loose) ((← remaining) + 2) true)

def looping : Nat → Nat → Bool → Reading Command
  | 0, _, _ => unexpected none
  | fuel + 1, line, negative => do
    let inner := list fuel .loose
    let condition ← list fuel .body
    expect inner "do"
    let body ← list fuel .body
    expect inner "done"
    finished fuel line (.loop negative condition body)

/-- A choice after its first word and up to its last one. -/
def choice : Nat → Reading Command
  | 0 => unexpected none
  | fuel + 1 => do
    let inner := list fuel .loose
    let condition ← list fuel .body
    expect inner "then"
    let yes ← list fuel .body
    match ← nextToken inner true false with
    | .mark "elif" => return .choice condition yes (← choice fuel)
    | .mark "else" => return .choice condition yes (← list fuel .body)
    | _ =>
      putBack
      return .choice condition yes .nothing

def selectionArms : Nat → Reading (List (List Word × Command))
  | 0 => unexpected none
  | fuel + 1 => do
    let inner := list fuel .loose
    let t ← nextToken inner false true
    if t = .mark "esac" then return []
    else
      if t = .mark "(" then discard (nextToken inner true false)
      let choices ← patterns inner ((← remaining) + 2)
      if (← get).token ≠ .mark ")" then unexpected (some (marked ")"))
      else
        let body ← list fuel .loose
        match ← nextToken inner false true with
        | .mark "esac" => return [(choices, body)]
        | .mark ";;" => return (choices, body) :: (← selectionArms fuel)
        | _ => unexpected (some (marked ";;"))

def simple : Nat → Nat → Draft → Reading Command
  | 0, _, _ => unexpected none
  | fuel + 1, line, draft => do
    let inner := list fuel .loose
    match ← nextToken inner true false with
    | .word =>
      let word := (← get).word
      if draft.words.isEmpty ∧ (assigned? word).isSome then
        simple fuel line { draft with assignments := word :: draft.assignments }
      else simple fuel line { draft with words := word :: draft.words }
    | .arrow number a =>
      let r ← redirection inner number a
      simple fuel line { draft with redirections := r :: draft.redirections }
    | .mark "(" =>
      match draft with
      | ⟨[], [word], []⟩ =>
        expect inner ")"
        let name ← functionName word
        return .function name (← command fuel false true)
      | _ => do
        putBack
        return .simple line draft.assignments.reverse draft.words.reverse
          draft.redirections.reverse
    | _ => do
      putBack
      return .simple line draft.assignments.reverse draft.words.reverse
        draft.redirections.reverse

end

/-- Enough for a text of some length: every step takes a character or goes into a construct
that a character opened. -/
def enough : Reading Nat := do
  return 16 * ((← remaining) + 4)

/-- The next line of commands, or `none` at the end of the text. -/
def line? : Reading (Option Command) := do
  modify fun r => { r with back := false, announced := [] }
  let fuel ← enough
  let inner := list fuel .loose
  match ← nextToken inner true true with
  | .finish => return none
  | _ =>
    putBack
    return some (← list fuel .line)

end Reading

end PerfGate.Script
