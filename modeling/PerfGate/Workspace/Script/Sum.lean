import PerfGate.Workspace.Script.Shell

/-!
# Sums

The arithmetic of a script is on integers of 64 bits with the operators, their precedence and
their assignments. A name stands for the number that the variable holds. An operand that does
not count, because the one before it decides, is read but not evaluated.
-/

set_option autoImplicit false

namespace PerfGate.Script

def wrapAt : Int := 0x10000000000000000

def greatest : Int := 0x7fffffffffffffff

/-- The integer of 64 bits that is the same but for multiples of `wrapAt`. -/
def wrapped64 (n : Int) : Int :=
  let m := n % wrapAt
  if greatest < m then m - wrapAt else m

def clamped64 (n : Int) : Int :=
  if greatest < n then greatest
  else if n < -greatest - 1 then -greatest - 1
  else n

namespace Sum

inductive Token where
  | number (n : Int)
  | name (s : Octets)
  | operator (s : Octets)
  | unknown
  | finish
  deriving DecidableEq, Repr

/-! ## Tokens -/

def digitValue (c : Char) : Nat :=
  if c.isDigit then c.toNat - 48
  else if c.toNat ≥ 97 then c.toNat - 87
  else c.toNat - 55

def isHexDigit (c : Char) : Bool :=
  c.isDigit || ('a' ≤ c && c ≤ 'f') || ('A' ≤ c && c ≤ 'F')

def valueIn (base : Nat) (digits : List Char) : Int :=
  digits.foldl (fun n c => n * base + digitValue c) 0

/-- The number at the start of a text; a zero at its front makes it octal, and a zero with an
`x` hexadecimal. -/
def takeNumber (cs : List Char) : Int × List Char :=
  let hex (rest : List Char) (whole : List Char) : Int × List Char :=
    let digits := rest.takeWhile isHexDigit
    if digits.isEmpty then (0, whole.drop 1)
    else (valueIn 16 digits, rest.drop digits.length)
  match cs with
  | '0' :: 'x' :: rest => hex rest cs
  | '0' :: 'X' :: rest => hex rest cs
  | '0' :: rest =>
    let digits := rest.takeWhile fun c => '0' ≤ c && c ≤ '7'
    (valueIn 8 digits, rest.drop digits.length)
  | _ =>
    let digits := cs.takeWhile Char.isDigit
    (valueIn 10 digits, cs.drop digits.length)

def operators : List Octets := [
  "<<=", ">>=", "<<", ">>", "<=", ">=", "==", "!=", "&&", "||", "+=", "-=", "*=", "/=", "%=",
  "&=", "|=", "^=", "=", "<", ">", "&", "|", "^", "!", "~", "+", "-", "*", "/", "%", "(", ")",
  "?", ":"]

def operator? (cs : List Char) : Option Octets :=
  operators.find? fun o => o.toList.isPrefixOf cs

def tokens : Nat → List Char → List Token
  | 0, _ => []
  | _, [] => []
  | fuel + 1, c :: rest =>
    if c = ' ' ∨ c = '\t' ∨ c = '\n' then tokens fuel rest
    else if c.isDigit then
      let (n, rest) := takeNumber (c :: rest)
      .number (clamped64 n) :: tokens fuel rest
    else if isNameStart c then
      let name := (c :: rest).takeWhile isNameChar
      .name (String.ofList name) :: tokens fuel ((c :: rest).drop name.length)
    else
      match operator? (c :: rest) with
      | some o => .operator o :: tokens fuel ((c :: rest).drop o.length)
      | none => [.unknown]

def ofText (text : Octets) : List Token :=
  tokens (text.length + 1) text.toList

def head (ts : List Token) : Token :=
  ts.head?.getD .finish

/-! ## Operators -/

/-- Operators of two operands; those with a lower number bind more tightly. -/
def precedence? : Octets → Option Nat
  | "*" | "/" | "%" => some 1
  | "+" | "-" => some 2
  | "<<" | ">>" => some 3
  | "<" | "<=" | ">" | ">=" => some 4
  | "==" | "!=" => some 5
  | "&" => some 6
  | "^" => some 7
  | "|" => some 8
  | _ => none

def binary? : Token → Option (Octets × Nat)
  | .operator o => (precedence? o).map fun p => (o, p)
  | _ => none

def ofBool (b : Bool) : Int := if b then 1 else 0

def word (n : Int) : Nat := (n % wrapAt).toNat

def bitwise (f : Nat → Nat → Nat) (a b : Int) : Int :=
  wrapped64 (f (word a) (word b))

def fault {α : Type} (text reason : Octets) : Act α :=
  Act.fail ("arithmetic expression: " ++ reason ++ ": \"" ++ text ++ "\"")

def apply (text : Octets) (o : Octets) (a b : Int) : Act Int :=
  match o with
  | "*" => pure (wrapped64 (a * b))
  | "/" => if b = 0 then fault text "division by zero" else pure (wrapped64 (a.tdiv b))
  | "%" => if b = 0 then fault text "division by zero" else pure (wrapped64 (a.tmod b))
  | "+" => pure (wrapped64 (a + b))
  | "-" => pure (wrapped64 (a - b))
  | "<<" => pure (wrapped64 (a * Int.ofNat (Nat.pow 2 (word b % 64))))
  | ">>" => pure (a / Int.ofNat (Nat.pow 2 (word b % 64)))
  | "<" => pure (ofBool (a < b))
  | "<=" => pure (ofBool (a ≤ b))
  | ">" => pure (ofBool (a > b))
  | ">=" => pure (ofBool (a ≥ b))
  | "==" => pure (ofBool (a = b))
  | "!=" => pure (ofBool (a ≠ b))
  | "&" => pure (bitwise Nat.land a b)
  | "^" => pure (bitwise Nat.xor a b)
  | _ => pure (bitwise Nat.lor a b)

def assigning? : Token → Option (Option Octets)
  | .operator "=" => some none
  | .operator o =>
    if o ∈ ["<<=", ">>=", "+=", "-=", "*=", "/=", "%=", "&=", "|=", "^="] then
      some (some (String.ofList o.toList.dropLast))
    else none
  | _ => none

/-! ## Values of variables -/

def integer? (text : Octets) : Option Int :=
  let cs := text.toList.dropWhile Octets.isBlank
  let (negative, digits) := match cs with
    | '-' :: rest => (true, rest)
    | '+' :: rest => (false, rest)
    | _ => (false, cs)
  match digits with
  | [] => if cs.isEmpty then some 0 else none
  | c :: _ =>
    if ¬ c.isDigit then none
    else
      let (n, rest) := takeNumber digits
      if rest.all Octets.isBlank ∧ clamped64 n = n then some (if negative then -n else n) else none

def valueOf (name : Octets) : Act Int := do
  let text := (← Act.lookup? name).getD ""
  match integer? text with
  | some n => return n
  | none => Act.fail ("Illegal number: " ++ text)

/-! ## Evaluation -/

abbrev Part := Int × List Token

mutual

/-- An operand; `idle` says that its value does not count. -/
def primary (text : Octets) : Nat → Bool → List Token → Act Part
  | 0, _, _ => fault text "expecting primary"
  | fuel + 1, idle, ts =>
    match ts with
    | .number n :: rest => pure (n, rest)
    | .name s :: rest => do return (← if idle then pure 0 else valueOf s, rest)
    | .operator "(" :: rest => do
      let (n, rest) ← assignment text fuel idle rest
      if head rest = .operator ")" then return (n, rest.drop 1)
      else fault text "expecting ')'"
    | .operator "+" :: rest => primary text fuel idle rest
    | .operator "-" :: rest => do
      let (n, rest) ← primary text fuel idle rest
      return (wrapped64 (-n), rest)
    | .operator "!" :: rest => do
      let (n, rest) ← primary text fuel idle rest
      return (ofBool (n = 0), rest)
    | .operator "~" :: rest => do
      let (n, rest) ← primary text fuel idle rest
      return (-n - 1, rest)
    | _ => fault text "expecting primary"

/-- Operands joined by operators that bind at least as tightly as `level`. -/
def joined (text : Octets) : Nat → Bool → Nat → List Token → Act Part
  | 0, _, _, _ => fault text "expecting primary"
  | fuel + 1, idle, level, ts => do
    let (a, rest) ← primary text fuel idle ts
    joinedAfter text fuel idle level a rest

def joinedAfter (text : Octets) : Nat → Bool → Nat → Int → List Token → Act Part
  | 0, _, _, _, _ => fault text "expecting primary"
  | fuel + 1, idle, level, a, ts =>
    match binary? (head ts) with
    | none => pure (a, ts)
    | some (o, p) =>
      if level < p then pure (a, ts)
      else do
        let (b, rest) ← joined text fuel idle (p - 1) (ts.drop 1)
        let n ← if idle then pure b else apply text o a b
        joinedAfter text fuel idle level n rest

def conjunction (text : Octets) : Nat → Bool → List Token → Act Part
  | 0, _, _ => fault text "expecting primary"
  | fuel + 1, idle, ts => do
    let (a, rest) ← joined text fuel idle 8 ts
    if head rest = .operator "&&" then
      let (b, rest) ← conjunction text fuel (idle || a = 0) (rest.drop 1)
      return (ofBool (a ≠ 0 ∧ b ≠ 0), rest)
    else return (a, rest)

def disjunction (text : Octets) : Nat → Bool → List Token → Act Part
  | 0, _, _ => fault text "expecting primary"
  | fuel + 1, idle, ts => do
    let (a, rest) ← conjunction text fuel idle ts
    if head rest = .operator "||" then
      let (b, rest) ← disjunction text fuel (idle || a ≠ 0) (rest.drop 1)
      return (ofBool (a ≠ 0 ∨ b ≠ 0), rest)
    else return (a, rest)

def conditional (text : Octets) : Nat → Bool → List Token → Act Part
  | 0, _, _ => fault text "expecting primary"
  | fuel + 1, idle, ts => do
    let (a, rest) ← disjunction text fuel idle ts
    if head rest = .operator "?" then
      let (b, rest) ← assignment text fuel (idle || a = 0) (rest.drop 1)
      if head rest = .operator ":" then
        let (c, rest) ← conditional text fuel (idle || a ≠ 0) (rest.drop 1)
        return (if a ≠ 0 then b else c, rest)
      else fault text "expecting ':'"
    else return (a, rest)

def assignment (text : Octets) : Nat → Bool → List Token → Act Part
  | 0, _, _ => fault text "expecting primary"
  | fuel + 1, idle, ts =>
    match ts with
    | .name s :: rest =>
      match assigning? (head rest) with
      | none => conditional text fuel idle ts
      | some o => do
        let (b, rest) ← assignment text fuel idle (rest.drop 1)
        if idle then return (b, rest)
        else
          let n ← match o with
            | none => pure b
            | some o => apply text o (← valueOf s) b
          Act.assign s (toString n)
          return (n, rest)
    | _ => conditional text fuel idle ts

end

def evaluate (text : Octets) : Act Int := do
  let ts := ofText text
  let (n, rest) ← assignment text (16 * (ts.length + 2)) false ts
  if rest.isEmpty then return n else fault text "expecting EOF"

end Sum

end PerfGate.Script
