/-!
# Ranges of characters

A property of characters is given by the ranges of code points that have it, in ascending
order, both ends included.
-/

set_option autoImplicit false

namespace PerfGate.Text

abbrev Ranges := List (Nat × Nat)

def Ranges.has : Ranges → Nat → Bool
  | [], _ => false
  | (first, last) :: rest, c => if last < c then Ranges.has rest c else decide (first ≤ c)

end PerfGate.Text
