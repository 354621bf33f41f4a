import PerfGate.Json.Value
import PerfGate.Decimal.Style
import PerfGate.Workspace.Octets

/-!
# Formatted output

A format is a text with directives. A directive has flags, a width, a precision and a letter
that says how its argument is shown: as it is, as an integer in one of three bases, or as a
decimal with a fixed number of places, an exponent, or whichever of these is shorter.
-/

set_option autoImplicit false

namespace PerfGate.Formatting

structure Directive where
  flags : List Char
  width : Option Nat
  precision : Option Nat
  letter : Char
  deriving DecidableEq, Repr

namespace Directive

def has (d : Directive) (flag : Char) : Bool :=
  d.flags.contains flag

/-- A width below zero asks for the left side. -/
def withWidth (d : Directive) (n : Int) : Directive :=
  if n < 0 then { d with flags := '-' :: d.flags, width := some n.natAbs }
  else { d with width := some n.natAbs }

/-- A precision below zero is none. -/
def withPrecision (d : Directive) (n : Int) : Directive :=
  if n < 0 then { d with precision := none } else { d with precision := some n.natAbs }

end Directive

/-! ## Filling -/

/-- Fills to the width: between the sign and the digits with zeros, or outside of both. -/
def filled (d : Directive) (byZeros : Bool) (sign body : List Char) : List Char :=
  let gap := d.width.getD 0 - (sign.length + body.length)
  if d.has '-' then sign ++ body ++ List.replicate gap ' '
  else if byZeros ∧ d.has '0' then sign ++ List.replicate gap '0' ++ body
  else List.replicate gap ' ' ++ sign ++ body

def signOf (d : Directive) (negative : Bool) : List Char :=
  if negative then ['-']
  else if d.has '+' then ['+']
  else if d.has ' ' then [' ']
  else []

/-! ## Texts and integers -/

def shownText (d : Directive) (s : List Char) : List Char :=
  let cut := match d.precision with
    | some n => s.take n
    | none => s
  filled d false [] cut

/-- At least as many digits as the precision asks for; none for zero if it asks for none. -/
def withDigits (d : Directive) (n : Nat) (digits : List Char) : List Char :=
  match d.precision with
  | some 0 => if n = 0 then [] else digits
  | some p => List.replicate (p - digits.length) '0' ++ digits
  | none => digits

def shownInteger (d : Directive) (n : Int) : List Char :=
  let digits := withDigits d n.natAbs (Nat.toDigits 10 n.natAbs)
  filled d d.precision.isNone (signOf d (n < 0)) digits

def shownNatural (d : Directive) (n : Nat) : List Char :=
  let upper (cs : List Char) : List Char := cs.map Char.toUpper
  match d.letter with
  | 'o' =>
    let digits := withDigits d n (Nat.toDigits 8 n)
    let digits := if d.has '#' ∧ digits.head? ≠ some '0' then '0' :: digits else digits
    filled d d.precision.isNone [] digits
  | 'x' =>
    let sign := if d.has '#' ∧ n ≠ 0 then ['0', 'x'] else []
    filled d d.precision.isNone sign (withDigits d n (Nat.toDigits 16 n))
  | 'X' =>
    let sign := if d.has '#' ∧ n ≠ 0 then ['0', 'X'] else []
    filled d d.precision.isNone sign (upper (withDigits d n (Nat.toDigits 16 n)))
  | _ => filled d d.precision.isNone [] (withDigits d n (Nat.toDigits 10 n))

/-! ## Decimals -/

/-- How often a fraction has to be multiplied by ten to reach one. -/
def tensBelow (num den : Nat) : Nat → Nat
  | 0 => 0
  | fuel + 1 => if den ≤ num then 0 else 1 + tensBelow (num * 10) den fuel

/-- The exponent of the first digit of a fraction that is not zero. -/
def firstExponent (num den : Nat) : Int :=
  if den ≤ num then ((Nat.toDigits 10 (num / den)).length : Int) - 1
  else -(tensBelow num den 400 : Int)

/-- So many digits after the first one, rounded, and the exponent of the first. -/
def scientificDigits (places m : Nat) (q : Int) : Nat × Int :=
  if m = 0 then (0, 0)
  else
    let (two, half) := Decimal.powerRatio 2 q
    let num := m * two
    let e := firstExponent num half
    let (up, down) := Decimal.powerRatio 10 (places - e)
    let digits := Decimal.roundDiv (num * up) (half * down)
    if digits = Nat.pow 10 (places + 1) then (digits / 10, e + 1) else (digits, e)

def exponentChars (e : Int) : List Char :=
  let digits := Nat.toDigits 10 e.natAbs
  (if e < 0 then '-' else '+') :: List.replicate (2 - digits.length) '0' ++ digits

def scientific (d : Directive) (places m : Nat) (q : Int) (trims : Bool) : List Char :=
  let (digits, e) := scientificDigits places m q
  let all := Nat.toDigits 10 digits
  let all := List.replicate (places + 1 - all.length) '0' ++ all
  let after := all.drop 1
  let after := if trims then (after.reverse.dropWhile (· = '0')).reverse else after
  let point := if after.isEmpty ∧ ¬ d.has '#' then [] else ['.']
  all.take 1 ++ point ++ after ++ 'e' :: exponentChars e

def fixed (d : Directive) (places m : Nat) (q : Int) (trims : Bool) : List Char :=
  let all := Decimal.pointed (Decimal.fixedDigits places m q) places
  let all := if trims ∧ all.contains '.' then (all.reverse.dropWhile (· = '0')).reverse else all
  let all := if trims ∧ all.getLast? = some '.' then all.dropLast else all
  if d.has '#' ∧ ¬ all.contains '.' then all ++ ['.'] else all

def general (d : Directive) (m : Nat) (q : Int) : List Char :=
  let precision := max 1 (d.precision.getD 6)
  let (_, e) := scientificDigits (precision - 1) m q
  if -4 ≤ e ∧ e < precision then fixed d ((precision - 1 : Int) - e).toNat m q (¬ d.has '#')
  else scientific d (precision - 1) m q (¬ d.has '#')

def shownDecimal (d : Directive) (x : Float) : List Char :=
  let shape (cs : List Char) : List Char := if d.letter.isUpper then cs.map Char.toUpper else cs
  match Decimal.Binary.ofFloat x with
  | .notANumber => filled d false (signOf d false) (shape "nan".toList)
  | .infinite negative => filled d false (signOf d negative) (shape "inf".toList)
  | .finite negative m q =>
    let body := match d.letter.toLower with
      | 'e' => scientific d (d.precision.getD 6) m q false
      | 'g' => general d m q
      | _ => fixed d (d.precision.getD 6) m q false
    filled d true (signOf d negative) (shape body)

/-! ## Reading decimals -/

def afterSign : List Char → Bool × List Char
  | '-' :: rest => (true, rest)
  | '+' :: rest => (false, rest)
  | cs => (false, cs)

def exponentOf (cs : List Char) : Int × List Char :=
  match cs with
  | c :: rest =>
    if c = 'e' ∨ c = 'E' then
      let (negative, digits) := afterSign rest
      let run := digits.takeWhile Char.isDigit
      if run.isEmpty then (0, cs)
      else
        let n : Int := Json.digitsValue run
        (if negative then -n else n, digits.drop run.length)
    else (0, cs)
  | [] => (0, [])

def startsWith (word : String) (cs : List Char) : Bool :=
  word.toList.isPrefixOf (cs.map Char.toLower)

/-- The number at the start of a text and what is left; `none` if there is no number. -/
def decimal? (cs : List Char) : Option (Float × List Char) :=
  let (negative, body) := afterSign (cs.dropWhile Octets.isBlank)
  let signed (x : Float) : Float := if negative then -x else x
  if startsWith "infinity" body then some (signed (1.0 / 0.0), body.drop 8)
  else if startsWith "inf" body then some (signed (1.0 / 0.0), body.drop 3)
  else if startsWith "nan" body then some (0.0 / 0.0, body.drop 3)
  else
    let whole := body.takeWhile Char.isDigit
    let rest := body.drop whole.length
    let (fraction, rest) := match rest with
      | '.' :: more =>
        let run := more.takeWhile Char.isDigit
        if whole.isEmpty ∧ run.isEmpty then ([], rest) else (run, more.drop run.length)
      | _ => ([], rest)
    if whole.isEmpty ∧ fraction.isEmpty then none
    else
      let (power, rest) := exponentOf rest
      let m := Json.digitsValue (whole ++ fraction)
      some (signed (Json.decimalFloat m (power - fraction.length)), rest)

end PerfGate.Formatting
