import PerfGate.Workspace.Script.Syntax

/-!
# Reading words

A script is read character by character, and the line that is reached is what a complaint
names. A token is a word, an arrow that redirects a stream, a mark or the end of a line. In a
word, quotes and a backslash take the meaning from characters, and a dollar sign starts an
expansion, which may hold words and whole commands again. A token can be put back.
-/

set_option autoImplicit false

namespace PerfGate.Script

/-- How a stream is redirected, before the word that says where. -/
inductive Arrow where
  | input
  | output
  | forced
  | appended
  | both
  | same
  /-- A document, from whose lines the leading tabs may be taken. -/
  | document (stripped : Bool)
  deriving DecidableEq, Repr

inductive Token where
  | word
  | arrow (number : Nat) (arrow : Arrow)
  /-- A mark or a keyword. -/
  | mark (text : Octets)
  | lineEnd
  | finish
  deriving DecidableEq, Repr

/-- A document that is announced but not yet read. -/
structure Announced where
  id : Nat
  mark : Octets
  stripped : Bool
  expands : Bool

structure Reader where
  rest : List Char
  line : Nat
  documents : Array Word
  token : Token
  /-- Whether the token was put back. -/
  back : Bool
  /-- The last word, and whether a part of it was quoted. -/
  word : Word
  quoted : Bool
  announced : List Announced
  /-- The document that is being read, whose mark ends the text. -/
  current : Option Announced
  /-- What comes after that mark, once it is reached. -/
  after : List Char

def Reader.ofChars (rest : List Char) (documents : Array Word) : Reader where
  rest := rest
  line := 1
  documents := documents
  token := .lineEnd
  back := false
  word := []
  quoted := false
  announced := []
  current := none
  after := []

abbrev Reading := ExceptT Complaint (StateM Reader)

namespace Reading

def fail {α : Type} (reason : Octets) : Reading α := do
  throw ⟨(← get).line, reason⟩

def marked (s : Octets) : Octets := "\"" ++ s ++ "\""

def tokenName : Token → Octets
  | .word => "word"
  | .arrow .. => "redirection"
  | .mark text => marked text
  | .lineEnd => "newline"
  | .finish => "end of file"

/-- The last token stands where it cannot. -/
def unexpected {α : Type} (expecting : Option Octets) : Reading α := do
  let found := tokenName (← get).token
  match expecting with
  | some s => fail (found ++ " unexpected (expecting " ++ s ++ ")")
  | none => fail (found ++ " unexpected")

/-! ## Characters -/

def raw? : Reading (Option Char) := modifyGet fun r =>
  match r.rest with
  | [] => (none, r)
  | c :: rest =>
    (some c, { r with rest := rest, line := if c = '\n' then r.line + 1 else r.line })

/-- The text after the line ends that a backslash takes away, and how many these are. -/
def unbroken : List Char → List Char × Nat
  | '\\' :: '\n' :: rest =>
    let (rest, n) := unbroken rest
    (rest, n + 1)
  | cs => (cs, 0)

/-- The next character. A backslash joins its line to the one after it. -/
def peek? : Reading (Option Char) := modifyGet fun r =>
  let (rest, n) := unbroken r.rest
  (rest.head?, { r with rest := rest, line := r.line + n })

def take? : Reading (Option Char) := do
  discard peek?
  raw?

/-- Takes a character whose line does not count, even if it ends one. -/
def takeSilently? : Reading (Option Char) := do
  discard peek?
  modifyGet fun r => (r.rest.head?, { r with rest := r.rest.drop 1 })

/-- Takes the next character if it is this one. -/
def skips (c : Char) : Reading Bool := do
  if (← peek?) = some c then
    discard raw?
    return true
  else return false

def takeWhile (p : Char → Bool) : Nat → Reading (List Char)
  | 0 => return []
  | fuel + 1 => do
    match ← peek? with
    | some c =>
      if p c then
        discard raw?
        return c :: (← takeWhile p fuel)
      else return []
    | none => return []

def remaining : Reading Nat := do
  return (← get).rest.length

def takeName : Reading Octets := do
  return String.ofList (← takeWhile isNameChar (← remaining))

def takeDigits : Reading Octets := do
  return String.ofList (← takeWhile Char.isDigit (← remaining))

/-- At the start of a line of a document: it may be the mark, which ends the text. -/
def startLine : Reading Unit := modify fun r =>
  match r.current with
  | none => r
  | some a =>
    let rest := if a.stripped then r.rest.dropWhile (· = '\t') else r.rest
    let line := rest.takeWhile (· ≠ '\n')
    let left := rest.drop line.length
    if line = a.mark.toList then
      { r with rest := [], after := left.drop 1, line := r.line + (left.take 1).length }
    else { r with rest := rest }

/-! ## Pieces -/

/-- What ends a series of pieces. -/
inductive Ending where
  | word
  | quote
  | brace
  | document
  /-- Two parentheses outside of so many others. -/
  | sum (depth : Nat)
  deriving DecidableEq, Repr

def Ending.keepsQuotes : Ending → Bool
  | .document => true
  | .sum _ => true
  | _ => false

/-- Whether characters are as they are between double quotes, and whether expansions are just
text. -/
structure Manner where
  quoted : Bool
  literal : Bool

def endsWord (c : Char) : Bool :=
  c ∈ [' ', '\t', '\n', ';', '&', '|', '(', ')', '<', '>']

def add (c : Char) (quoted : Bool) : List Piece → List Piece
  | .text s q :: rest =>
    if q = quoted then .text (s.push c) q :: rest
    else .text (String.singleton c) quoted :: .text s q :: rest
  | pieces => .text (String.singleton c) quoted :: pieces

/-- Whether a backslash keeps its meaning before a character between double quotes. -/
def escapes (ending : Ending) (c : Char) : Bool :=
  c = '\\' || c = '\x60' || c = '$' || (c = '"' && ending ≠ .document) ||
    (c = '\x7d' && ending = .brace)

def isQuoted : Piece → Bool
  | .text _ quoted => quoted
  | .every => true
  | _ => false

/-- What double quotes hold. The quotes keep a word that has nothing in it. -/
def quotedPieces : Word → Word
  | [.parameter "@" .value true] => [.every]
  | pieces => .text "" true :: pieces

/-- The text ends where a quote should. In a document only the braces around are missed. -/
def unterminated {α : Type} : Reading α := do
  if (← get).current.isSome then fail "Missing '\x7d'" else fail "Unterminated quoted string"

def singleQuoted : Nat → List Char → Reading (List Char)
  | 0, _ => unterminated
  | fuel + 1, cs => do
    match ← raw? with
    | none => unterminated
    | some c =>
      if c = '\x27' then return cs.reverse
      else
        if c = '\n' then startLine
        singleQuoted fuel (c :: cs)

/-- The text up to a single mark of the old form of an output. -/
def oldOutput (quoted : Bool) : Nat → List Char → Reading (List Char)
  | 0, _ => fail "EOF in backquote substitution"
  | fuel + 1, cs => do
    match ← take? with
    | none => fail "EOF in backquote substitution"
    | some '\x60' => return cs.reverse
    | some '\\' =>
      match ← raw? with
      | none => fail "EOF in backquote substitution"
      | some c =>
        if c = '\\' ∨ c = '\x60' ∨ c = '$' ∨ (c = '"' ∧ quoted) then
          oldOutput quoted fuel (c :: cs)
        else oldOutput quoted fuel (c :: '\\' :: cs)
    | some c => oldOutput quoted fuel (c :: cs)

def within {α : Type} (text : List Char) (line : Nat) (reading : Reading α) : Reading α := do
  let before ← get
  set { before with rest := text, line := line, back := false, announced := [], current := none }
  let a ← reading
  modify fun r => { before with documents := r.documents }
  return a

def outputCommand (commands : Reading Command) : Reading Command := do
  let before ← get
  set { before with back := false, announced := [], current := none }
  let c ← commands
  if (← get).token ≠ .mark ")" then unexpected (some (marked ")"))
  else
    modify fun r =>
      { r with
        back := false
        announced := before.announced
        current := before.current
        word := before.word
        quoted := before.quoted }
    return c

def sumEnd : Reading Bool := do
  if (← peek?) = some ')' then
    discard raw?
    return true
  else return false

/-- What a use of a parameter starts with, after its name. -/
inductive UseStart where
  | done
  | absent (absence : Absence) (evenEmpty : Bool)
  | without (atEnd longest : Bool)
  | faulty
  deriving DecidableEq, Repr

def absence? : Char → Option Absence
  | '-' => some .word
  | '+' => some .opposite
  | '=' => some .assigned
  | '?' => some .fault
  | _ => none

def useStart : Reading UseStart := do
  match ← takeSilently? with
  | some '\x7d' => return .done
  | some ':' =>
    match ← takeSilently? with
    | some c => return ((absence? c).map fun a => .absent a true).getD .faulty
    | none => return .faulty
  | some '%' => return .without true (← skips '%')
  | some '#' => return .without false (← skips '#')
  | some c => return ((absence? c).map fun a => .absent a false).getD .faulty
  | none => return .faulty

/-- The parameter of an expansion in braces and whether its length is meant; `none` if there
is none. -/
def bracedName : Reading (Option (Octets × Bool)) := do
  match ← peek? with
  | some c =>
    if isNameStart c then return some (← takeName, false)
    else if c.isDigit then return some (← takeDigits, false)
    else if c = '#' then
      discard raw?
      match ← peek? with
      | some d =>
        if isNameStart d then return some (← takeName, true)
        else if d.isDigit then return some (← takeDigits, true)
        else
          let r ← get
          match r.rest with
          | d :: '\x7d' :: _ =>
            if d ≠ '\x7d' ∧ isSpecial d then
              discard raw?
              return some (String.singleton d, true)
            else return some ("#", false)
          | _ => return some ("#", false)
      | none => return some ("#", false)
    else if isSpecial c then
      discard raw?
      return some (String.singleton c, false)
    else if c = '\x7d' then return none
    else
      discard takeSilently?
      return none
  | none => return none

mutual

def pieces (commands : Reading Command) : Nat → Ending → Manner → List Piece → Reading Word
  | 0, _, _, _ => fail "Unterminated quoted string"
  | fuel + 1, ending, manner, acc => do
    match ← peek? with
    | none =>
      match ending with
      | .word | .document => return acc.reverse
      | .quote => unterminated
      | .brace => if manner.quoted then unterminated else fail "Missing '\x7d'"
      | .sum _ => fail "Missing '))'"
    | some c =>
      if ending = .word ∧ endsWord c then return acc.reverse
      else
        discard raw?
        if c = '\\' then
          match ← raw? with
          | none => pieces commands fuel ending manner (add '\\' true acc)
          | some d =>
            if manner.quoted ∧ ¬ escapes ending d then
              pieces commands fuel ending manner (add d true (add '\\' true acc))
            else pieces commands fuel ending manner (add d true acc)
        else if c = '\x27' ∧ ¬ manner.quoted then
          let text ← singleQuoted ((← remaining) + 1) []
          pieces commands fuel ending manner (.text (String.ofList text) true :: acc)
        else if c = '"' ∧ ending = .quote then return acc.reverse
        else if c = '"' ∧ ¬ ending.keepsQuotes then
          let inside ← pieces commands fuel .quote { manner with quoted := true } []
          pieces commands fuel ending manner ((quotedPieces inside).reverse ++ acc)
        else if c = '$' ∧ ¬ manner.literal then
          match ← dollar commands fuel manner with
          | some piece => pieces commands fuel ending manner (piece :: acc)
          | none => pieces commands fuel ending manner (add c manner.quoted acc)
        else if c = '\x60' ∧ ¬ manner.literal then
          let text ← oldOutput manner.quoted ((← remaining) + 1) []
          let command ← within text 1 commands
          pieces commands fuel ending manner (.output command manner.quoted :: acc)
        else if c = '\x7d' ∧ ending = .brace then return acc.reverse
        else
          match ending, c with
          | .sum depth, '(' =>
            pieces commands fuel (.sum (depth + 1)) manner (add c manner.quoted acc)
          | .sum (depth + 1), ')' =>
            pieces commands fuel (.sum depth) manner (add c manner.quoted acc)
          | .sum 0, ')' =>
            if ← sumEnd then return acc.reverse
            else pieces commands fuel ending manner (add c manner.quoted acc)
          | _, _ =>
            if c = '\n' then startLine
            pieces commands fuel ending manner (add c manner.quoted acc)

/-- What stands after a dollar sign; nothing, if the sign is just text. -/
def dollar (commands : Reading Command) : Nat → Manner → Reading (Option Piece)
  | 0, _ => fail "Unterminated quoted string"
  | fuel + 1, manner => do
    let quoted := manner.quoted
    match ← peek? with
    | some '(' =>
      discard raw?
      if ← skips '(' then
        let expression ← pieces commands fuel (.sum 0) { manner with quoted := true } []
        return some (.sum expression quoted)
      else return some (.output (← outputCommand commands) quoted)
    | some '\x7b' =>
      discard raw?
      return some (← braced commands fuel manner)
    | some c =>
      if isNameStart c then return some (.parameter (← takeName) .value quoted)
      else if isSpecial c then
        discard raw?
        return some (.parameter (String.singleton c) .value quoted)
      else return none
    | none => return none

def braced (commands : Reading Command) : Nat → Manner → Reading Piece
  | 0, _ => fail "Missing '\x7d'"
  | fuel + 1, manner => do
    let quoted := manner.quoted
    match ← bracedName with
    | none =>
      discard (pieces commands fuel .brace manner [])
      return .parameter "" .faulty quoted
    | some (name, true) =>
      if ← skips '\x7d' then return .parameter name .length quoted
      else
        discard (pieces commands fuel .brace manner [])
        return .parameter name .faulty quoted
    | some (name, false) =>
      match ← useStart with
      | .done => return .parameter name .value quoted
      | .absent absence evenEmpty =>
        let word ← pieces commands fuel .brace manner []
        return .parameter name (.absent absence evenEmpty word) quoted
      | .without atEnd longest =>
        let pattern ← pieces commands fuel .brace { manner with quoted := false } []
        return .parameter name (.without atEnd longest pattern) quoted
      | .faulty =>
        discard (pieces commands fuel .brace manner [])
        return .parameter name .faulty quoted

end

/-! ## Documents -/

/-- The lines of a text as they are, up to its end. -/
def plainLines : Nat → List Char → Reading (List Char)
  | 0, cs => return cs.reverse
  | fuel + 1, cs => do
    match ← raw? with
    | none => return cs.reverse
    | some c =>
      if c = '\n' then startLine
      plainLines fuel (c :: cs)

def document (commands : Reading Command) (a : Announced) : Reading Unit := do
  modify fun r => { r with current := some a, after := [] }
  let fuel := 4 * (← remaining) + 8
  startLine
  let doc ← if a.expands then pieces commands fuel .document ⟨true, false⟩ []
    else do pure [.text (String.ofList (← plainLines fuel [])) true]
  modify fun r =>
    { r with
      rest := r.after
      current := none
      documents := r.documents.setIfInBounds a.id doc }

def documents (commands : Reading Command) : Reading Unit := do
  let announced := (← get).announced
  modify fun r => { r with announced := [] }
  announced.forM (document commands)

/-! ## Tokens -/

def keywords : List Octets :=
  ["!", "case", "do", "done", "elif", "else", "esac", "fi", "for", "if", "in", "then", "until",
    "while", "\x7b", "\x7d"]

def keyword? : Word → Option Octets
  | [.text s false] => if s ∈ keywords then some s else none
  | _ => none

def put (t : Token) : Reading Token := do
  modify fun r => { r with token := t }
  return t

def skipComment : Nat → Reading Unit
  | 0 => return ()
  | fuel + 1 => do
    match (← get).rest with
    | [] | '\n' :: _ => return ()
    | _ =>
      discard raw?
      skipComment fuel

def doubled (c : Char) : Reading Token := do
  if ← skips c then put (.mark (String.ofList [c, c])) else put (.mark (String.singleton c))

/-- An arrow after the number of a stream or without one. -/
def arrow (number : Option Nat) : Reading Token := do
  if ← skips '>' then
    let number := number.getD 1
    if ← skips '>' then put (.arrow number .appended)
    else if ← skips '|' then put (.arrow number .forced)
    else if ← skips '&' then put (.arrow number .same)
    else put (.arrow number .output)
  else
    discard raw?
    let number := number.getD 0
    if ← skips '<' then put (.arrow number (.document (← skips '-')))
    else if ← skips '&' then put (.arrow number .same)
    else if ← skips '>' then put (.arrow number .both)
    else put (.arrow number .input)

def digit? : Word → Option Nat
  | [.text s false] =>
    match s.toList with
    | [c] => if c.isDigit then some (c.toNat - 48) else none
    | _ => none
  | _ => none

def wordToken (commands : Reading Command) (literal : Bool) : Reading Token := do
  let r ← get
  let word ← pieces commands (4 * r.rest.length + 16) .word ⟨false, literal⟩ []
  let next ← peek?
  if (next = some '<' ∨ next = some '>') ∧ (word.isEmpty ∨ (digit? word).isSome) then
    arrow (digit? word)
  else
    modify fun r => { r with word := word, quoted := word.any isQuoted }
    put .word

def fresh (commands : Reading Command) (literal : Bool) : Nat → Reading Token
  | 0 => put .finish
  | fuel + 1 => do
    match ← peek? with
    | none => put .finish
    | some c =>
      match c with
      | ' ' | '\t' =>
        discard raw?
        fresh commands literal fuel
      | '#' =>
        skipComment (← remaining)
        fresh commands literal fuel
      | '\n' =>
        discard raw?
        put .lineEnd
      | '&' | '|' | ';' =>
        discard raw?
        doubled c
      | '(' | ')' =>
        discard raw?
        put (.mark (String.singleton c))
      | _ => wordToken commands literal

def written (commands : Reading Command) (literal : Bool) : Reading Token := do
  let r ← get
  if r.back then
    modify fun r => { r with back := false }
    return r.token
  else fresh commands literal (r.rest.length + 2)

def afterLineEnds (commands : Reading Command) : Nat → Reading Token
  | 0 => written commands false
  | fuel + 1 => do
    match ← written commands false with
    | .lineEnd =>
      documents commands
      afterLineEnds commands fuel
    | t => return t

/-- The next token; ends of lines may be left out, and unquoted words may be keywords. -/
def next (commands : Reading Command) (lineEnds keywords : Bool) : Reading Token := do
  let t ← if lineEnds then written commands false
    else afterLineEnds commands ((← remaining) + 2)
  let r ← get
  if t = .word ∧ keywords then
    match keyword? r.word with
    | some k => put (.mark k)
    | none => return t
  else return t

def putBack : Reading Unit :=
  modify fun r => { r with back := true }

end Reading

end PerfGate.Script
