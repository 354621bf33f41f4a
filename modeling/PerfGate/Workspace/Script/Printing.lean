import PerfGate.Workspace.Formatting
import PerfGate.Workspace.Script.Sum

/-!
# Printing

Two commands print their words: one with blanks between them, the other by a format that is
used again as long as there are words left. Both know escapes with a backslash, one of which
ends all output.
-/

set_option autoImplicit false

namespace PerfGate.Script.Printing

/-! ## Escapes -/

def isOctal (c : Char) : Bool := '0' ≤ c && c ≤ '7'

def octal (digits : List Char) : Char :=
  Char.ofNat (digits.foldl (fun n c => n * 8 + (c.toNat - 48)) 0 % 256)

/-- What a backslash and the characters after it stand for. Without a meaning of its own the
backslash stands for itself. -/
def escape (cs : List Char) : Char × List Char :=
  match cs with
  | [] => ('\\', [])
  | c :: rest =>
    if isOctal c then
      let digits := (cs.take 3).takeWhile isOctal
      (octal digits, cs.drop digits.length)
    else
      match c with
      | '\\' => ('\\', rest)
      | 'a' => ('\x07', rest)
      | 'b' => ('\x08', rest)
      | 'f' => ('\x0c', rest)
      | 'n' => ('\n', rest)
      | 'r' => ('\r', rest)
      | 't' => ('\t', rest)
      | 'v' => ('\x0b', rest)
      | _ => ('\\', cs)

/-- A text with its escapes replaced, and whether one of them ends all output. A zero may
stand before the digits of a number. -/
def unescaped : Nat → List Char → List Char × Bool
  | 0, _ => ([], false)
  | _, [] => ([], false)
  | fuel + 1, c :: rest =>
    if c ≠ '\\' then
      let (more, ends) := unescaped fuel rest
      (c :: more, ends)
    else
      match rest with
      | 'c' :: _ => ([], true)
      | _ =>
        let rest := match rest with
          | '0' :: d :: more => if isOctal d then d :: more else rest
          | _ => rest
        let (d, rest) := escape rest
        let (more, ends) := unescaped fuel rest
        (d :: more, ends)

def unescape (s : Octets) : List Char × Bool :=
  unescaped (s.length + 1) s.toList

/-! ## Words with blanks -/

def joined : List Octets → Bool → List Char
  | [], line => if line then ['\n'] else []
  | [s], line =>
    let (text, ends) := unescape s
    if ends then text else text ++ (if line then ['\n'] else [])
  | s :: more, line =>
    let (text, ends) := unescape s
    if ends then text else text ++ ' ' :: joined more line

/-- The text for words; a first word can leave out the end of the line. -/
def echoed (words : List Octets) : Octets :=
  String.ofList <| match words with
    | "-n" :: words => joined words false
    | words => joined words true

/-! ## Formats -/

/-- A conversion so far: the words that are left, whether all of them were fit, and whether
the format itself was not. -/
structure Supply where
  words : List Octets
  fit : Bool
  broken : Bool

abbrev Supplied := StateT Supply Act

def word? : Supplied (Option Octets) := do
  let s ← get
  match s.words with
  | [] => return none
  | w :: rest =>
    set { s with words := rest }
    return some w

def unfit (message : Octets) : Supplied Unit := do
  (Act.warn message : Act Unit)
  modify fun s => { s with fit := false }

/-- Tells a fault of the format, after which nothing more is written. -/
def broken (message : Octets) : Supplied (List Char × Bool) := do
  (Act.warn message : Act Unit)
  modify fun s => { s with broken := true }
  return ([], true)

def quotedNumber? (w : Octets) : Option Nat :=
  match w.toList with
  | c :: rest =>
    if c = '"' ∨ c = '\x27' then some (rest.head?.map Char.toNat |>.getD 0) else none
  | [] => none

def checked (w : Octets) (rest : List Char) (started : Bool) : Supplied Unit :=
  if rest.isEmpty then return ()
  else if started then unfit (w ++ ": not completely converted")
  else unfit (w ++ ": expected numeric value")

/-- An integer without limits at the start of a word, with what is left. -/
def integerStart (w : Octets) : Option (Int × List Char) :=
  let (negative, digits) := Formatting.afterSign (w.toList.dropWhile Octets.isBlank)
  match digits with
  | c :: _ =>
    if c.isDigit then
      let (n, rest) := Sum.takeNumber digits
      some (if negative then -n else n, rest)
    else none
  | [] => none

def inRange (w : Octets) (low high n : Int) : Supplied Int :=
  if n < low ∨ high < n then do
    unfit (w ++ ": Numerical result out of range")
    return if n < low then low else high
  else return n

def integer : Supplied Int := do
  match ← word? with
  | none => return 0
  | some w =>
    match quotedNumber? w with
    | some n => return n
    | none =>
      match integerStart w with
      | none =>
        checked w w.toList false
        return 0
      | some (n, rest) =>
        checked w rest true
        inRange w (-greatest - 1) greatest n

/-- A natural number; one below zero counts from the end of the range. -/
def natural : Supplied Nat := do
  match ← word? with
  | none => return 0
  | some w =>
    match quotedNumber? w with
    | some n => return n
    | none =>
      match integerStart w with
      | none =>
        checked w w.toList false
        return 0
      | some (n, rest) =>
        checked w rest true
        return Sum.word (← inRange w (1 - wrapAt) (wrapAt - 1) n)

def decimal : Supplied Float := do
  match ← word? with
  | none => return 0.0
  | some w =>
    match quotedNumber? w with
    | some n => return Float.ofNat n
    | none =>
      match Formatting.decimal? w.toList with
      | none =>
        checked w w.toList false
        return 0.0
      | some (x, rest) =>
        checked w rest true
        return x

def digitsOf (cs : List Char) : Option Nat × List Char :=
  let digits := cs.takeWhile Char.isDigit
  (if digits.isEmpty then none else some (Json.digitsValue digits), cs.drop digits.length)

/-- A directive after its percent sign, with what comes after its letter. -/
def directive (cs : List Char) : Supplied (Option (Formatting.Directive × List Char)) := do
  let flags := cs.takeWhile fun c => c ∈ ['#', '-', '+', ' ', '0']
  let d : Formatting.Directive := ⟨flags, none, none, 's'⟩
  let cs := cs.drop flags.length
  let (d, cs) ← match cs with
    | '*' :: rest => do pure (d.withWidth (← integer), rest)
    | _ =>
      let (width, rest) := digitsOf cs
      pure ({ d with width := width }, rest)
  let (d, cs) ← match cs with
    | '.' :: '*' :: rest => do pure (d.withPrecision (← integer), rest)
    | '.' :: rest =>
      let (precision, rest) := digitsOf rest
      pure ({ d with precision := some (precision.getD 0) }, rest)
    | _ => pure (d, cs)
  match cs with
  | [] => return none
  | c :: rest => return some ({ d with letter := c }, rest)

def converted (written : List Char) (d : Formatting.Directive) : Supplied (List Char × Bool) := do
  match d.letter with
  | 's' =>
    let w := (← word?).getD ""
    return (Formatting.shownText d w.toList, false)
  | 'b' =>
    let (text, ends) := unescape ((← word?).getD "")
    return (Formatting.shownText d text, ends)
  | 'c' =>
    let c := ((← word?).bind fun w => w.toList.head?).getD '\x00'
    return (Formatting.shownText { d with precision := none } [c], false)
  | 'd' | 'i' => return (Formatting.shownInteger d (← integer), false)
  | 'o' | 'u' | 'x' | 'X' => return (Formatting.shownNatural d (← natural), false)
  | 'e' | 'E' | 'f' | 'F' | 'g' | 'G' => return (Formatting.shownDecimal d (← decimal), false)
  | _ => broken (String.ofList written ++ ": invalid directive")

def pass : Nat → List Char → Supplied (List Char × Bool)
  | 0, _ => return ([], false)
  | _, [] => return ([], false)
  | fuel + 1, c :: rest =>
    match c, rest with
    | '\\', _ => do
      let (d, rest) := escape rest
      let (more, ends) ← pass fuel rest
      return (d :: more, ends)
    | '%', '%' :: rest => do
      let (more, ends) ← pass fuel rest
      return ('%' :: more, ends)
    | '%', _ => do
      match ← directive rest with
      | none => broken "missing format character"
      | some (d, after) =>
        let written := c :: rest.take (rest.length - after.length)
        let (text, ends) ← converted written d
        if ends then return (text, true)
        else
          let (more, ends) ← pass fuel after
          return (text ++ more, ends)
    | _, _ => do
      let (more, ends) ← pass fuel rest
      return (c :: more, ends)

/-- Passes until no words are left or a pass takes none. -/
def passes (format : List Char) : Nat → Supplied (List Char)
  | 0 => return []
  | fuel + 1 => do
    let before := (← get).words.length
    let (text, ends) ← pass (format.length + 1) format
    let left := (← get).words.length
    if ends ∨ left = 0 ∨ left = before then return text
    else return text ++ (← passes format fuel)

/-- The text for a format and words, and the status for how they fit together. -/
def formatted (format : Octets) (words : List Octets) : Act (Octets × Nat) := do
  let (text, supply) ← (passes format.toList (words.length + 1)).run ⟨words, true, false⟩
  return (String.ofList text, if supply.broken then 2 else if supply.fit then 0 else 1)

end PerfGate.Script.Printing
