/-!
# Statistics of durations

Sums run from left to right over the durations as they were measured. Median, extremes and
percentiles are read off a list in ascending order; the order is built by moving each
duration left past all greater ones, so equal durations keep their places.
-/

set_option autoImplicit false

namespace PerfGate.Statistics

/-- Places a duration below all greater ones in a descending list. -/
def place (x : Float) : List Float → List Float
  | [] => [x]
  | y :: rest => if x < y then y :: place x rest else x :: y :: rest

def ascending (durations : List Float) : List Float :=
  (durations.foldl (fun placed x => place x placed) []).reverse

/-- The empty sum is negative zero, which leaves every first summand as it is. -/
def sum (xs : List Float) : Float :=
  xs.foldl (· + ·) (-0.0)

def mean (xs : List Float) : Float :=
  sum xs / Float.ofNat xs.length

def deviation (xs : List Float) (center : Float) : Float :=
  if xs.length < 2 then 0.0
  else
    let squares := xs.map fun x => (x - center) * (x - center)
    (sum squares / Float.ofNat (xs.length - 1)).sqrt

/-- The middle of a list as it stands, or the mean of the middle pair. -/
def median (xs : List Float) : Float :=
  let middle := xs.length / 2
  if xs.length = 0 then 0.0
  else if xs.length % 2 = 1 then xs.getD middle 0.0
  else (xs.getD (middle - 1) 0.0 + xs.getD middle 0.0) / 2.0

/-- The whole part of `fraction · n`; below zero it is zero. -/
def rankIndex (fraction : Float) (n : Nat) : Nat :=
  (fraction * Float.ofNat n).toUInt64.toNat

/-- Nearest rank, without interpolation; ranks past the end give the last element. -/
def percentile (xs : List Float) (fraction : Float) : Float :=
  xs.getD (min (rankIndex fraction xs.length) (xs.length - 1)) 0.0

def p95Fraction : Float := 0.95

/-- The nearest point between two bounds, if the bounds are in order. -/
def clamp? (x lo hi : Float) : Option Float :=
  if lo ≤ hi then some (if x < lo then lo else if hi < x then hi else x) else none

end PerfGate.Statistics
