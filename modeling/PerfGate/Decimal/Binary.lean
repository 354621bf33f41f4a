/-!
# Binary64 values in exact arithmetic

A finite binary64 number is `± m · 2 ^ q` for a natural number `m` and an integer `q`.
Every text and every comparison of numbers in this library that has to be exact starts
from this reading of the word. The interval of reals that round to a number is given on
the grid of quarter units, so that its ends are natural numbers too.
-/

set_option autoImplicit false

namespace PerfGate.Decimal

inductive Binary where
  | notANumber
  | infinite (negative : Bool)
  | finite (negative : Bool) (m : Nat) (q : Int)
  deriving DecidableEq, Repr

namespace Binary

def leastExponent : Int := -1074

/-- The least significand of a number that is not subnormal. -/
def hiddenBit : Nat := 0x10000000000000

/-- The bit of a word that holds the sign. -/
def signBit : Nat := 0x8000000000000000

def ofBits (bits : Nat) : Binary :=
  let negative := bits / signBit % 2 == 1
  let exponent := bits / hiddenBit % 2048
  let fraction := bits % hiddenBit
  if exponent = 2047 then
    if fraction = 0 then .infinite negative else .notANumber
  else if exponent = 0 then .finite negative fraction leastExponent
  else .finite negative (hiddenBit + fraction) (leastExponent + (exponent - 1 : Nat))

def ofFloat (x : Float) : Binary :=
  ofBits x.toBits.toNat

end Binary

/-- The reals that round to `m · 2 ^ q`, with bounds counted in units of `2 ^ (q - 2)`. -/
structure Interval where
  lower : Nat
  upper : Nat
  closed : Bool
  deriving DecidableEq, Repr

/-- Below a power of two the neighbouring number is only half a unit away. -/
def Interval.around (m : Nat) (q : Int) : Interval where
  lower := if m = Binary.hiddenBit ∧ Binary.leastExponent < q then 4 * m - 1 else 4 * m - 2
  upper := 4 * m + 2
  closed := m % 2 == 0

/-- Quotient to the nearest integer; a half goes to the even neighbour. -/
def roundDiv (num den : Nat) : Nat :=
  let below := num / den
  let rest := 2 * (num % den)
  if den < rest ∨ (rest = den ∧ below % 2 = 1) then below + 1 else below

/-- `base ^ e` or its inverse, as the numerator and the denominator of a fraction. -/
def powerRatio (base : Nat) (e : Int) : Nat × Nat :=
  (Nat.pow base e.toNat, Nat.pow base (-e).toNat)

end PerfGate.Decimal
