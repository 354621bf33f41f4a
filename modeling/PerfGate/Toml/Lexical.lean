import PerfGate.Json.Value
import PerfGate.Json.Reader

/-!
# The words of TOML

Blanks, comments, strings, numbers, dates and keys. Every reader takes the text and gives what
it read with the rest of the text, or nothing if the text does not start with such a word.
-/

set_option autoImplicit false

namespace PerfGate.Toml

abbrev Reader (α : Type) := List Char → Option (α × List Char)

/-! ## Blanks and comments -/

def isBlank (c : Char) : Bool :=
  c = ' ' || c = '\t'

/-- Characters that may stand in a comment: no controls but the tabulator. -/
def isCommentChar (c : Char) : Bool :=
  c = '\t' || (32 ≤ c.toNat && c.toNat ≠ 127)

def skipBlanks (s : List Char) : List Char :=
  s.dropWhile isBlank

def skipLoose : Bool → List Char → List Char
  | _, [] => []
  | inComment, c :: rest =>
    if c = '\n' then skipLoose false rest
    else if c = '\r' ∧ rest.head? = some '\n' then skipLoose false rest
    else if inComment then
      if isCommentChar c then skipLoose true rest else c :: rest
    else if isBlank c then skipLoose false rest
    else if c = '#' then skipLoose true rest
    else c :: rest

def lineBreak? : List Char → Option (List Char)
  | [] => some []
  | '\n' :: rest => some rest
  | '\r' :: '\n' :: rest => some rest
  | _ => none

/-- What may follow a definition on its line: blanks and a comment. -/
def lineEnd? (s : List Char) : Option (List Char) :=
  match skipBlanks s with
  | '#' :: rest => lineBreak? (rest.dropWhile isCommentChar)
  | rest => lineBreak? rest

/-! ## Strings -/

def scalar? (n : Nat) : Option Char :=
  if n < 0xD800 ∨ (0xDFFF < n ∧ n < 0x110000) then some (Char.ofNat n) else none

def hexNumber? (ds : List Char) : Option Nat :=
  ds.foldlM (fun n d => (Json.hexDigit? d).map (n * 16 + ·)) 0

def escapeChar? (c : Char) : Option Char :=
  match c with
  | 'b' => some '\x08'
  | 't' => some '\t'
  | 'n' => some '\n'
  | 'f' => some '\x0c'
  | 'r' => some '\r'
  | '"' => some '"'
  | '\\' => some '\\'
  | _ => none

/-- How many hexadecimal digits follow the letter of a numbered escape. -/
def escapeDigits? (c : Char) : Option Nat :=
  if c = 'u' then some 4 else if c = 'U' then some 8 else none

def consChar (c : Char) (read : Option (List Char × List Char)) :
    Option (List Char × List Char) :=
  read.map fun (chars, rest) => (c :: chars, rest)

/-- The rest of a string on one line; `skip` characters have been used by an escape. -/
def readLine (quote : Char) (escapes : Bool) : Nat → Reader (List Char)
  | _, [] => none
  | skip + 1, _ :: rest => readLine quote escapes skip rest
  | 0, c :: rest =>
    if c = quote then some ([], rest)
    else if c = '\\' && escapes then
      match rest with
      | [] => none
      | e :: more =>
        match escapeChar? e with
        | some x => consChar x (readLine quote escapes 1 rest)
        | none => do
          let size ← escapeDigits? e
          if more.length < size then none
          let x ← scalar? (← hexNumber? (more.take size))
          consChar x (readLine quote escapes (size + 1) rest)
    else if isCommentChar c then consChar c (readLine quote escapes 0 rest)
    else none

inductive Place where
  /-- After a count of quotes that may belong to the end. -/
  | quotes (n : Nat)
  /-- After an escaped line break, which takes all blanks and line breaks with it. -/
  | trimmed
  /-- Inside an escape, with a count of characters still to skip. -/
  | skipping (n : Nat)

def quotesRead (quote : Char) (n : Nat) (read : Option (List Char × List Char)) :
    Option (List Char × List Char) :=
  read.map fun (chars, rest) => (List.replicate n quote ++ chars, rest)

/-- The rest of a string over several lines. Three quotes end it, and up to two more right
before them belong to it. -/
def readLines (quote : Char) (escapes : Bool) : Place → Reader (List Char)
  | .quotes n, [] => if 3 ≤ n ∧ n ≤ 5 then some (List.replicate (n - 3) quote, []) else none
  | _, [] => none
  | .skipping (n + 1), _ :: rest =>
    readLines quote escapes (if n = 0 then .quotes 0 else .skipping n) rest
  | place, c :: rest =>
    let breaks := c = '\n' ∨ (c = '\r' ∧ rest.head? = some '\n')
    let trimming := match place with
      | .trimmed => true
      | _ => false
    let n := match place with
      | .quotes n => n
      | _ => 0
    if trimming && (isBlank c || decide breaks) then readLines quote escapes .trimmed rest
    else if c = quote then readLines quote escapes (.quotes (n + 1)) rest
    else if 3 ≤ n then
      if n ≤ 5 then some (List.replicate (n - 3) quote, c :: rest) else none
    else quotesRead quote n <|
      if c = '\n' then consChar c (readLines quote escapes (.quotes 0) rest)
      else if c = '\r' then
        if rest.head? = some '\n' then readLines quote escapes (.quotes 0) rest else none
      else if c = '\\' && escapes then
        match rest with
        | [] => none
        | e :: more =>
          match escapeChar? e with
          | some x => consChar x (readLines quote escapes (.skipping 1) rest)
          | none =>
            match escapeDigits? e with
            | some size =>
              if more.length < size then none
              else
                match (hexNumber? (more.take size)).bind scalar? with
                | some x => consChar x (readLines quote escapes (.skipping (size + 1)) rest)
                | none => none
            | none =>
              match (skipBlanks rest) with
              | '\n' :: _ => readLines quote escapes .trimmed rest
              | '\r' :: '\n' :: _ => readLines quote escapes .trimmed rest
              | _ => none
      else if isCommentChar c then consChar c (readLines quote escapes (.quotes 0) rest)
      else none

/-- A line break right after the opening quotes does not belong to the string. -/
def dropLineBreak : List Char → List Char
  | '\n' :: rest => rest
  | '\r' :: '\n' :: rest => rest
  | rest => rest

def asText (read : Option (List Char × List Char)) : Option (String × List Char) :=
  read.map fun (chars, rest) => (String.ofList chars, rest)

def readQuoted : Reader String
  | '"' :: rest => asText (readLine '"' true 0 rest)
  | '\x27' :: rest => asText (readLine '\x27' false 0 rest)
  | _ => none

def readString : Reader String
  | '"' :: '"' :: '"' :: rest => asText (readLines '"' true (.quotes 0) (dropLineBreak rest))
  | '\x27' :: '\x27' :: '\x27' :: rest =>
    asText (readLines '\x27' false (.quotes 0) (dropLineBreak rest))
  | s => readQuoted s

/-! ## Keys -/

def isKeyChar (c : Char) : Bool :=
  c.isAlphanum || c = '_' || c = '-'

def readSimpleKey : Reader String
  | s =>
    match readQuoted s with
    | some read => some read
    | none =>
      match s.takeWhile isKeyChar with
      | [] => none
      | cs => some (String.ofList cs, s.dropWhile isKeyChar)

/-- Names separated by points, with blanks around them. -/
def readKey : Nat → Reader (List String)
  | 0, _ => none
  | fuel + 1, s => do
    let (name, rest) ← readSimpleKey (skipBlanks s)
    match skipBlanks rest with
    | '.' :: more =>
      let (names, rest) ← readKey fuel more
      return (name :: names, rest)
    | rest => return ([name], rest)

/-! ## Numbers -/

/-- Digits with single underscores between them. -/
def readDigits (isDigit : Char → Bool) : Reader (List Char)
  | [] => none
  | c :: rest =>
    if isDigit c then
      match rest with
      | '_' :: d :: more =>
        if isDigit d then consChar c (readDigits isDigit (d :: more)) else some ([c], rest)
      | d :: more =>
        if isDigit d then consChar c (readDigits isDigit (d :: more)) else some ([c], rest)
      | [] => some ([c], [])
    else none

def readSign : List Char → Bool × List Char
  | '+' :: rest => (false, rest)
  | '-' :: rest => (true, rest)
  | rest => (false, rest)

/-- Decimal digits without a superfluous zero in front. -/
def readDecimal (s : List Char) : Option (List Char × List Char) :=
  match s with
  | '0' :: rest => some (['0'], rest)
  | _ => readDigits Json.isDigit s

def signedInt (negative : Bool) (n : Nat) : Int :=
  if negative then -(n : Int) else n

def inRange (n : Int) : Option Int :=
  if -(Json.signedLimit : Int) ≤ n ∧ n < Json.signedLimit then some n else none

def radixNumber (radix : Nat) (ds : List Char) : Nat :=
  ds.foldl (fun n d => n * radix + (Json.hexDigit? d).getD 0) 0

def isHexDigit (c : Char) : Bool :=
  (Json.hexDigit? c).isSome

def isOctalDigit (c : Char) : Bool :=
  '0' ≤ c && c ≤ '7'

def isBinaryDigit (c : Char) : Bool :=
  c = '0' || c = '1'

def readRadix (radix : Nat) (isDigit : Char → Bool) (s : List Char) :
    Option (Int × List Char) := do
  let (ds, rest) ← readDigits isDigit s
  return (← inRange (radixNumber radix ds), rest)

def readInteger : Reader Int
  | '0' :: 'x' :: rest => readRadix 16 isHexDigit rest
  | '0' :: 'o' :: rest => readRadix 8 isOctalDigit rest
  | '0' :: 'b' :: rest => readRadix 2 isBinaryDigit rest
  | s => do
    let (negative, s) := readSign s
    let (ds, rest) ← readDecimal s
    return (← inRange (signedInt negative (Json.digitsValue ds)), rest)

def readFraction : List Char → Option (List Char × List Char)
  | '.' :: rest => readDigits Json.isDigit rest
  | _ => none

def readExponent : List Char → Option (Int × List Char)
  | e :: rest =>
    if e = 'e' ∨ e = 'E' then do
      let (negative, rest) := readSign rest
      let (ds, rest) ← readDigits Json.isDigit rest
      return (signedInt negative (Json.digitsValue ds), rest)
    else none
  | [] => none

/-- A number that is too great is refused; one that is too small on the negative side is
negative infinity. -/
def finishReal (negative : Bool) (whole fraction : List Char) (exponent : Int) : Option Float :=
  let x := Json.decimalFloat (Json.digitsValue (whole ++ fraction)) (exponent - fraction.length)
  if negative then some (-x) else if x.isInf then none else some x

def readReal (s : List Char) : Option (Float × List Char) := do
  let (negative, s) := readSign s
  match s with
  | 'i' :: 'n' :: 'f' :: rest =>
    let infinity := Float.ofBits 0x7ff0000000000000
    return (if negative then -infinity else infinity, rest)
  | 'n' :: 'a' :: 'n' :: rest => return (Float.ofBits 0x7ff8000000000000, rest)
  | _ =>
    let (whole, rest) ← readDecimal s
    match readFraction rest with
    | some (fraction, rest) =>
      match readExponent rest with
      | some (exponent, rest) => return (← finishReal negative whole fraction exponent, rest)
      | none => return (← finishReal negative whole fraction 0, rest)
    | none =>
      let (exponent, rest) ← readExponent rest
      return (← finishReal negative whole [] exponent, rest)

/-! ## Dates and times -/

/-- A number of a fixed count of digits, from `least` to `greatest`. -/
def readField (size least greatest : Nat) (s : List Char) : Option (Nat × List Char) :=
  let ds := s.take size
  if ds.length = size ∧ ds.all Json.isDigit then
    let n := Json.digitsValue ds
    if least ≤ n ∧ n ≤ greatest then some (n, s.drop size) else none
  else none

def expect (c : Char) : List Char → Option (List Char)
  | d :: rest => if c = d then some rest else none
  | [] => none

def isLeapYear (year : Nat) : Bool :=
  year % 4 = 0 && (year % 100 ≠ 0 || year % 400 = 0)

def daysInMonth (year month : Nat) : Nat :=
  if month = 2 then (if isLeapYear year then 29 else 28)
  else if month = 4 ∨ month = 6 ∨ month = 9 ∨ month = 11 then 30
  else 31

def readDate (s : List Char) : Option (List Char) := do
  let (year, s) ← readField 4 0 9999 s
  let (month, s) ← readField 2 1 12 (← expect '-' s)
  let (_, s) ← readField 2 1 (daysInMonth year month) (← expect '-' s)
  return s

def readTime (s : List Char) : Option (List Char) := do
  let (_, s) ← readField 2 0 23 s
  let (_, s) ← readField 2 0 59 (← expect ':' s)
  let (_, s) ← readField 2 0 60 (← expect ':' s)
  match s with
  | '.' :: d :: rest => if Json.isDigit d then return rest.dropWhile Json.isDigit else return s
  | _ => return s

/-- An offset from the prime meridian, or nothing. -/
def readOffset (s : List Char) : Option (List Char) :=
  match s with
  | 'Z' :: rest => some rest
  | 'z' :: rest => some rest
  | c :: rest =>
    if c = '+' ∨ c = '-' then do
      let (_, s) ← readField 2 0 23 rest
      let (_, s) ← readField 2 0 59 (← expect ':' s)
      return s
    else some s
  | [] => some s

def readMoment (s : List Char) : Option (List Char) :=
  match readDate s with
  | none => readTime s
  | some rest =>
    match rest with
    | c :: more =>
      if c = 'T' ∨ c = 't' ∨ c = ' ' then
        match readTime more with
        | some rest => readOffset rest
        | none => some rest
      else some rest
    | [] => some rest

end PerfGate.Toml
