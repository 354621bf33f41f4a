import PerfGate.Json.Document

/-!
# Reading JSON texts

The reader is a function on lists of characters. Each part gives what it read together with
the rest of the text, or with nothing where the text broke off, since no position after a
break is ever looked at. Nesting is bounded by fuel computed from the length of the text:
of three successive steps at least one consumes a character.
-/

set_option autoImplicit false

namespace PerfGate.Json

def isBlank (c : Char) : Bool :=
  c = ' ' || c = '\n' || c = '\t' || c = '\r'

def skipBlanks (s : List Char) : List Char :=
  s.dropWhile isBlank

/-! ## Literals -/

def hexDigit? (c : Char) : Option Nat :=
  if '0' ≤ c ∧ c ≤ '9' then some (c.toNat - 48)
  else if 'a' ≤ c ∧ c ≤ 'f' then some (c.toNat - 87)
  else if 'A' ≤ c ∧ c ≤ 'F' then some (c.toNat - 55)
  else none

def hex4? (a b c d : Char) : Option Nat := do
  let a ← hexDigit? a
  let b ← hexDigit? b
  let c ← hexDigit? c
  let d ← hexDigit? d
  return ((a * 16 + b) * 16 + c) * 16 + d

/-- Four bytes have to be left after the letter `u`; if they are, they are not all digits. -/
def brokenHex (rest : List Char) : Break :=
  if rest.foldl (fun n c => n + c.utf8Size) 0 < 4 then .cut else .malformed

def escapeChar? (c : Char) : Option Char :=
  match c with
  | '"' => some '"'
  | '\\' => some '\\'
  | '/' => some '/'
  | 'b' => some '\x08'
  | 'f' => some '\x0c'
  | 'n' => some '\n'
  | 'r' => some '\r'
  | 't' => some '\t'
  | _ => none

def Literal.stop (why : Break) : Literal × Option (List Char) :=
  (⟨[], some why⟩, none)

def Literal.cons (p : Piece) (read : Literal × Option (List Char)) :
    Literal × Option (List Char) :=
  (⟨p :: read.1.pieces, read.1.broken⟩, read.2)

def readLiteral : List Char → Literal × Option (List Char)
  | [] => Literal.stop .cut
  | c :: rest =>
    if c = '"' then (⟨[], none⟩, some rest)
    else if c = '\\' then
      match rest with
      | [] => Literal.stop .cut
      | 'u' :: a :: b :: c :: d :: more =>
        match hex4? a b c d with
        | some n => Literal.cons (.unit n) (readLiteral more)
        | none => Literal.stop (brokenHex (a :: b :: c :: d :: more))
      | e :: more =>
        if e = 'u' then Literal.stop (brokenHex more)
        else
          match escapeChar? e with
          | some x => Literal.cons (.char x) (readLiteral more)
          | none => Literal.stop .malformed
    else if c.toNat < 32 then Literal.stop .malformed
    else Literal.cons (.char c) (readLiteral rest)

/-! ## Numerals -/

def isDigit (c : Char) : Bool :=
  '0' ≤ c && c ≤ '9'

/-- The text goes on, but not with a digit, or it does not go on. -/
def noDigit (rest : List Char) : Break :=
  if rest.isEmpty then .cut else .malformed

def readExponent (rest : List Char) : Except Break (Option (Bool × List Char) × List Char) :=
  match rest with
  | e :: more =>
    if e = 'e' ∨ e = 'E' then
      let (negative, digits) := match more with
        | '+' :: digits => (false, digits)
        | '-' :: digits => (true, digits)
        | digits => (false, digits)
      match digits.takeWhile isDigit with
      | [] => .error (noDigit digits)
      | ds => .ok (some (negative, ds), digits.dropWhile isDigit)
    else .ok (none, rest)
  | [] => .ok (none, rest)

def readFraction (rest : List Char) : Except Break (Option (List Char) × List Char) :=
  match rest with
  | '.' :: more =>
    match more.takeWhile isDigit with
    | [] => .error (noDigit more)
    | ds => .ok (some ds, more.dropWhile isDigit)
  | _ => .ok (none, rest)

/-- Digits without a superfluous zero in front. -/
def readWhole (rest : List Char) : Except Break (List Char × List Char) :=
  match rest.takeWhile isDigit with
  | [] => .error (noDigit rest)
  | '0' :: _ :: _ => .error .malformed
  | ds => .ok (ds, rest.dropWhile isDigit)

def readUnsigned (negative : Bool) (rest : List Char) : Except Break (Numeral × List Char) := do
  let (whole, rest) ← readWhole rest
  let (fraction, rest) ← readFraction rest
  let (exponent, rest) ← readExponent rest
  return (⟨negative, whole, fraction, exponent⟩, rest)

def readNumeral (text : List Char) : Except Break (Numeral × List Char) :=
  match text with
  | '-' :: rest => readUnsigned true rest
  | rest => readUnsigned false rest

/-! ## Words, lists and nodes -/

/-- The letters of a word whose first letter has been seen. -/
def readWord : List Char → List Char → Except Break (List Char)
  | [], rest => .ok rest
  | _ :: _, [] => .error .cut
  | w :: word, c :: rest => if w = c then readWord word rest else .error .malformed

def wordNode (word : List Char) (node : Node) (rest : List Char) : Node × Option (List Char) :=
  match readWord word rest with
  | .ok rest => (node, some rest)
  | .error why => (.broken why, none)

mutual

def readNode : Nat → List Char → Node × Option (List Char)
  | 0, _ => (.broken .malformed, none)
  | fuel + 1, text =>
    match skipBlanks text with
    | [] => (.broken .cut, none)
    | c :: rest =>
      if c = 'n' then wordNode ['u', 'l', 'l'] .null rest
      else if c = 't' then wordNode ['r', 'u', 'e'] (.boolean true) rest
      else if c = 'f' then wordNode ['a', 'l', 's', 'e'] (.boolean false) rest
      else if c = '"' then
        let (literal, rest) := readLiteral rest
        (.literal literal, rest)
      else if c = '[' then
        let (items, rest) := readItems fuel true rest
        (.array items, rest)
      else if c = '\x7b' then
        let (members, rest) := readMembers fuel true rest
        (.object members, rest)
      else if c = '-' ∨ isDigit c then
        match readNumeral (c :: rest) with
        | .ok (n, rest) => (.numeral n, some rest)
        | .error why => (.brokenNumeral why, none)
      else (.broken .malformed, none)

def readItems : Nat → Bool → List Char → Items × Option (List Char)
  | 0, _, _ => (.ending (.unclosed .malformed), none)
  | fuel + 1, first, text =>
    match skipBlanks text with
    | [] => (.ending (.unclosed .cut), none)
    | c :: rest =>
      if c = ']' then (.ending .closed, some rest)
      else if first then readItem fuel (c :: rest)
      else if c = ',' then
        match skipBlanks rest with
        | [] => (.ending (.dangling .cut), none)
        | d :: more =>
          if d = ']' then (.ending (.dangling .malformed), none)
          else readItem fuel (d :: more)
      else (.ending (.unclosed .malformed), none)

def readItem : Nat → List Char → Items × Option (List Char)
  | 0, _ => (.ending (.unclosed .malformed), none)
  | fuel + 1, text =>
    match readNode fuel text with
    | (node, none) => (.item node (.ending (.unclosed .malformed)), none)
    | (node, some rest) =>
      let (items, rest) := readItems fuel false rest
      (.item node items, rest)

def readMembers : Nat → Bool → List Char → Members × Option (List Char)
  | 0, _, _ => (.ending (.unclosed .malformed), none)
  | fuel + 1, first, text =>
    match skipBlanks text with
    | [] => (.ending (.unclosed .cut), none)
    | c :: rest =>
      if c = '\x7d' then (.ending .closed, some rest)
      else if first then
        if c = '"' then readMember fuel rest else (.ending (.unclosed .malformed), none)
      else if c = ',' then
        match skipBlanks rest with
        | [] => (.ending (.dangling .cut), none)
        | d :: more =>
          if d = '"' then readMember fuel more else (.ending (.dangling .malformed), none)
      else (.ending (.unclosed .malformed), none)

def readMember : Nat → List Char → Members × Option (List Char)
  | 0, _ => (.ending (.unclosed .malformed), none)
  | fuel + 1, text =>
    match readLiteral text with
    | (key, none) => (.member key (.broken .malformed) (.ending (.unclosed .malformed)), none)
    | (key, some rest) =>
      match skipBlanks rest with
      | [] => (.member key (.broken .cut) (.ending (.unclosed .cut)), none)
      | c :: more =>
        if c = ':' then
          match readNode fuel more with
          | (node, none) => (.member key node (.ending (.unclosed .malformed)), none)
          | (node, some rest) =>
            let (members, rest) := readMembers fuel false rest
            (.member key node members, rest)
        else (.member key (.broken .malformed) (.ending (.unclosed .malformed)), none)

end

def read (text : String) : Document :=
  let chars := text.toList
  match readNode (3 * chars.length + 3) chars with
  | (root, none) => ⟨root, true⟩
  | (root, some rest) => ⟨root, (skipBlanks rest).isEmpty⟩

end PerfGate.Json
