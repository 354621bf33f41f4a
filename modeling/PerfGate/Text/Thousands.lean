/-!
# Thousands separators

An integer is written in decimal with a comma between groups of three digits, counted from
the right. A comma follows a digit exactly when the number of digits after it is a positive
multiple of three.
-/

set_option autoImplicit false

namespace PerfGate.Text

def grouped : List Char → List Char
  | [] => []
  | [d] => [d]
  | d :: rest =>
    if rest.length % 3 = 0 then d :: ',' :: grouped rest else d :: grouped rest

def thousandsChars (n : Int) : List Char :=
  let digits := grouped (Nat.toDigits 10 n.natAbs)
  if n < 0 then '-' :: digits else digits

def groupThousands (n : Int) : String :=
  String.ofList (thousandsChars n)

end PerfGate.Text
