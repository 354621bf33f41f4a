import PerfGate.Decimal.Shortest

/-!
# Number texts

Three spellings of a binary64 number occur in the texts of this library: a fixed count of
decimal places, the shortest decimal written out in full, and the shortest decimal as a
JSON number. The first rounds the exact value of the word, with a half going to the even
neighbour; the other two look for their digits in the same way and differ in a small record.
-/

set_option autoImplicit false

namespace PerfGate.Decimal

def digitsOf (n : Nat) : List Char :=
  Nat.toDigits 10 n

def zeros (n : Nat) : List Char :=
  List.replicate n '0'

def signed (negative : Bool) (text : List Char) : List Char :=
  if negative then '-' :: text else text

/-- `digits · 10 ^ (-places)` with exactly `places` digits after the point. -/
def pointed (digits places : Nat) : List Char :=
  let all := digitsOf digits
  let padded := zeros (places + 1 - all.length) ++ all
  let whole := padded.length - places
  if places = 0 then padded else padded.take whole ++ '.' :: padded.drop whole

/-- `m · 2 ^ q · 10 ^ places`, rounded to an integer. -/
def fixedDigits (places m : Nat) (q : Int) : Nat :=
  let (two, half) := powerRatio 2 q
  roundDiv (m * two * Nat.pow 10 places) half

def fixedChars (places : Nat) : Binary → List Char
  | .notANumber => "NaN".toList
  | .infinite negative => signed negative "inf".toList
  | .finite negative m q => signed negative (pointed (fixedDigits places m q) places)

def fixed (places : Nat) (x : Float) : String :=
  String.ofList (fixedChars places (.ofFloat x))

structure Style where
  /-- The exponents of the first digit for which the number is written in full. -/
  inFull : Int → Bool
  /-- Whether a whole number written in full ends in `.0`. -/
  pointZero : Bool
  tie : Tie

/-- Always in full, whole numbers without a point, of two equally near decimals the greater. -/
def plain : Style where
  inFull := fun _ => true
  pointZero := false
  tie := .greater

/-- In full from `1e-5` up to `1e16`, whole numbers with a point, of two equally near decimals
the even one. -/
def json : Style where
  inFull := fun e => -5 ≤ e && e < 16
  pointZero := true
  tie := .even

namespace Style

def full (style : Style) (d : List Char) (e : Int) : List Char :=
  if 0 ≤ e then
    d ++ zeros e.toNat ++ (if style.pointZero then ['.', '0'] else [])
  else
    let places := (-e).toNat
    let padded := zeros (places + 1 - d.length) ++ d
    let whole := padded.length - places
    padded.take whole ++ '.' :: padded.drop whole

def scientific (d : List Char) (first : Int) : List Char :=
  let mantissa := match d with
    | [] => []
    | [c] => [c]
    | c :: rest => c :: '.' :: rest
  mantissa ++ 'e' :: (if first < 0 then '-' else '+') :: digitsOf first.natAbs

def digits (style : Style) (n : Scaled) : List Char :=
  let d := digitsOf n.digits
  let first := n.exponent + (d.length - 1 : Nat)
  if n.digits = 0 ∨ style.inFull first then style.full d n.exponent
  else scientific d first

def finite (style : Style) (negative : Bool) (m : Nat) (q : Int) : List Char :=
  signed negative (style.digits (shortest style.tie m q))

end Style

def shown (x : Float) : String :=
  match Binary.ofFloat x with
  | .notANumber => "NaN"
  | .infinite negative => String.ofList (signed negative "inf".toList)
  | .finite negative m q => String.ofList (plain.finite negative m q)

end PerfGate.Decimal
