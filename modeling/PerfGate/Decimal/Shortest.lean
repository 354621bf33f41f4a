import PerfGate.Decimal.Binary

/-!
# The shortest decimal that reads back

Of all decimals `n · 10 ^ j` inside the interval of a number, the shortest lie on the
coarsest grid: the one with the greatest `j` that has a point in the interval. Two
neighbours of the number are on each grid, so two tests per grid decide. Of two points in
the interval the nearer is taken, and of two equally near the even or the greater one.
-/

set_option autoImplicit false

namespace PerfGate.Decimal

structure Scaled where
  digits : Nat
  exponent : Int
  deriving DecidableEq, Repr

/-- Which of two equally near decimals is taken. -/
inductive Tie where
  | even
  | greater
  deriving DecidableEq, Repr

def Tie.takesLower (tie : Tie) (below : Nat) : Bool :=
  match tie with
  | .even => below % 2 == 0
  | .greater => false

/-- Units in which `m · 2 ^ q` and the grid of `10 ^ j` are both whole: a grid point `n` is
`n * grid` units, a bound of the interval `b` is `b * quarter` units. -/
structure Units where
  grid : Nat
  quarter : Nat

def Units.of (q j : Int) : Units :=
  let (ten, tenth) := powerRatio 10 j
  let (two, half) := powerRatio 2 (q - 2)
  ⟨ten * half, two * tenth⟩

namespace Interval

def contains (i : Interval) (u : Units) (n : Nat) : Bool :=
  if i.closed then
    i.lower * u.quarter ≤ n * u.grid && n * u.grid ≤ i.upper * u.quarter
  else
    i.lower * u.quarter < n * u.grid && n * u.grid < i.upper * u.quarter

end Interval

/-- The point of the grid `10 ^ j` that stands for `m · 2 ^ q`, if the interval has one. -/
def gridPoint (tie : Tie) (m : Nat) (q j : Int) : Option Nat :=
  let interval := Interval.around m q
  let u := Units.of q j
  let below := 4 * m * u.quarter / u.grid
  let left := 4 * m * u.quarter - below * u.grid
  let right := (below + 1) * u.grid - 4 * m * u.quarter
  match interval.contains u below, interval.contains u (below + 1) with
  | true, true =>
    if left < right ∨ (left = right ∧ tie.takesLower below) then some below else some (below + 1)
  | true, false => some below
  | false, true => some (below + 1)
  | false, false => none

def coarsest (tie : Tie) (m : Nat) (q : Int) : Nat → Int → Scaled
  | 0, start => ⟨0, start⟩
  | fuel + 1, start =>
    match gridPoint tie m q start with
    | some n => ⟨n, start⟩
    | none => coarsest tie m q fuel (start - 1)

/-- No finite number needs a grid coarser than `10 ^ 309` or finer than `10 ^ (-324)`. -/
def shortest (tie : Tie) (m : Nat) (q : Int) : Scaled :=
  if m = 0 then ⟨0, 0⟩ else coarsest tie m q 634 309

end PerfGate.Decimal
