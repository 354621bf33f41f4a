import PerfGate.Json.Reader
import PerfGate.Json.Value
import PerfGate.Text.Quoted

/-!
# Values on the command line

Counts, real numbers, paths, names and workloads, each with the reason why a text is none.
-/

set_option autoImplicit false

namespace PerfGate.CommandLine

/-! ## Counts -/

/-- Reads digits from left to right and stops at the first that does not fit. -/
def readCount (n : Nat) : List Char → Except String Nat
  | [] => .ok n
  | c :: rest =>
    if Json.isDigit c then
      let next := n * 10 + (c.toNat - 48)
      if next < Json.unsignedLimit then readCount next rest
      else .error "number too large to fit in target type"
    else .error "invalid digit found in string"

/-- A plus sign may stand before the digits. -/
def parseCount (s : String) : Except String Nat :=
  match s.toList with
  | [] => .error "cannot parse integer from empty string"
  | ['+'] => .error "invalid digit found in string"
  | '+' :: rest => readCount 0 rest
  | cs => readCount 0 cs

/-! ## Real numbers -/

/-- The exponent, if the rest of the text is one or is empty. -/
def readExponent : List Char → Option Int
  | [] => some 0
  | e :: rest =>
    if e = 'e' ∨ e = 'E' then
      let (negative, ds) := match rest with
        | '+' :: ds => (false, ds)
        | '-' :: ds => (true, ds)
        | ds => (false, ds)
      if ds.isEmpty ∨ ¬ ds.all Json.isDigit then none
      else
        let n : Int := Json.digitsValue ds
        some (if negative then -n else n)
    else none

/-- Digits with a point among them or at either end, and an exponent. -/
def readDecimal (cs : List Char) : Option Float :=
  let whole := cs.takeWhile Json.isDigit
  let (fraction, rest) := match cs.dropWhile Json.isDigit with
    | '.' :: rest => (rest.takeWhile Json.isDigit, rest.dropWhile Json.isDigit)
    | rest => ([], rest)
  if whole.isEmpty ∧ fraction.isEmpty then none
  else (readExponent rest).map fun e =>
    Json.decimalFloat (Json.digitsValue (whole ++ fraction)) (e - fraction.length)

def readUnsigned (cs : List Char) : Option Float :=
  let name := String.ofList (cs.map Char.toLower)
  if name = "inf" ∨ name = "infinity" then some (Float.ofBits 0x7ff0000000000000)
  else if name = "nan" then some (Float.ofBits 0x7ff8000000000000)
  else readDecimal cs

def parseReal (s : String) : Except String Float :=
  let read := match s.toList with
    | '+' :: cs => readUnsigned cs
    | '-' :: cs => (readUnsigned cs).map fun x => -x
    | cs => readUnsigned cs
  match read with
  | some x => .ok x
  | none =>
    .error (if s.isEmpty then "cannot parse float from empty string" else "invalid float literal")

/-! ## Workloads -/

structure Workload where
  path : String
  implementation : String
  deriving DecidableEq, Repr

/-- The parts before and after the last colon. -/
def splitLast : List Char → Option (List Char × List Char)
  | [] => none
  | c :: rest =>
    match splitLast rest with
    | some (front, back) => some (c :: front, back)
    | none => if c = ':' then some ([], rest) else none

/-- Both parts have to be there. -/
def parseWorkload (s : String) : Except String Workload :=
  match splitLast s.toList with
  | some (c :: path, d :: implementation) =>
    .ok ⟨String.ofList (c :: path), String.ofList (d :: implementation)⟩
  | _ => .error ("expected FILE.sql:IMPLEMENTATION, got " ++ Text.quoted s)

end PerfGate.CommandLine
