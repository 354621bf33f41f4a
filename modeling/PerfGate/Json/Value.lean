import PerfGate.Json.Document

/-!
# Kept values

What a document says once its strings, numbers and depth have been checked. Surrogate units
have to come in pairs, a whole number that fits 64 bits stays whole and every other number
becomes one of binary64, and a number beyond the range of binary64 is no number. The members
of an object are kept in ascending order of their keys, the last of equal keys winning.

There are two ways to round a numeral. The nearest number is the right one; the quick reading
takes the digits that fit 64 bits as a whole number and multiplies or divides it by a power of
ten, which can end next to it.
-/

set_option autoImplicit false

namespace PerfGate.Json

inductive Number where
  | integer (n : Int)
  | real (x : Float)

def Number.toFloat : Number → Float
  | .integer n => Float.ofInt n
  | .real x => x

inductive Value where
  | null
  | boolean (b : Bool)
  | number (n : Number)
  | text (s : String)
  | array (items : List Value)
  | object (members : List (String × Value))

instance : Inhabited Value := ⟨.null⟩

/-! ## Texts -/

def isLeading (n : Nat) : Bool :=
  0xD800 ≤ n && n ≤ 0xDBFF

def isTrailing (n : Nat) : Bool :=
  0xDC00 ≤ n && n ≤ 0xDFFF

def joinUnits (leading trailing : Nat) : Char :=
  Char.ofNat (0x10000 + (leading - 0xD800) * 0x400 + (trailing - 0xDC00))

/-- The characters of a literal; a leading unit has to be followed by a trailing one. -/
def joinPieces (broken : Option Break) : List Piece → Except Break (List Char)
  | [] =>
    match broken with
    | none => .ok []
    | some why => .error why
  | .char c :: rest => (joinPieces broken rest).map (c :: ·)
  | .unit n :: rest =>
    if isTrailing n then .error .malformed
    else if isLeading n then
      match rest with
      | [] => .error (if broken = some .cut then .cut else .malformed)
      | .char _ :: _ => .error .malformed
      | .unit t :: more =>
        if isTrailing t then (joinPieces broken more).map (joinUnits n t :: ·)
        else .error .malformed
    else (joinPieces broken rest).map (Char.ofNat n :: ·)

def Literal.text (l : Literal) : Except Break String :=
  (joinPieces l.broken l.pieces).map String.ofList

/-! ## Numbers -/

def digitsValue (ds : List Char) : Nat :=
  ds.foldl (fun n d => n * 10 + (d.toNat - 48)) 0

/-- `m · 10 ^ e` rounded to the nearest binary64 number. Far outside of the range of those
numbers the power is not worked out. -/
def decimalFloat (m : Nat) (e : Int) : Float :=
  if m = 0 ∨ e + Nat.log2 m < -400 then 0.0
  else if 400 < e then 1.0 / 0.0
  else Float.ofScientific m (decide (e < 0)) e.natAbs

def Numeral.power (n : Numeral) : Int :=
  match n.exponent with
  | none => 0
  | some (negative, ds) => if negative then -(digitsValue ds : Int) else digitsValue ds

def Numeral.nearest (n : Numeral) : Float :=
  let fraction := n.fraction.getD []
  decimalFloat (digitsValue (n.whole ++ fraction)) (n.power - fraction.length)

def signedLimit : Nat := 0x8000000000000000

def unsignedLimit : Nat := 0x10000000000000000

/-- A whole number in the range of 64 bits, signed or unsigned; zero has no minus sign. -/
def Numeral.integer? (n : Numeral) : Option Int :=
  if n.fraction.isSome || n.exponent.isSome then none
  else
    let m := digitsValue n.whole
    if n.negative then
      if 0 < m ∧ m ≤ signedLimit then some (-(m : Int)) else none
    else if m < unsignedLimit then some m else none

/-! ## Quick readings -/

/-- Leads a number on by digits as long as it fits 64 bits, and counts them. -/
def leadingDigits (m : Nat) : List Char → Nat × Nat
  | [] => (m, 0)
  | d :: rest =>
    let next := m * 10 + (d.toNat - 48)
    if next < unsignedLimit then
      let (value, count) := leadingDigits next rest
      (value, count + 1)
    else (m, 0)

/-- The leading digits as a whole number, and the power of ten that goes with them. Digits
that do not fit are dropped, so those before the point raise the power. -/
def Numeral.leading (n : Numeral) : Nat × Int :=
  let (m, count) := leadingDigits 0 n.whole
  let (m, places) := leadingDigits m (n.fraction.getD [])
  (m, ((n.whole.length - count : Nat) : Int) - places + n.power)

def greatestPower : Nat := 308

def powerOfTen (e : Nat) : Float :=
  Float.ofScientific 1 false e

/-- Divides by a power of ten, in more than one step if it is too great for one. After two
steps nothing is left. -/
def dividedBy : Nat → Float → Nat → Float
  | 0, _, _ => 0.0
  | steps + 1, x, e =>
    if e ≤ greatestPower then x / powerOfTen e
    else dividedBy steps (x / powerOfTen greatestPower) (e - greatestPower)

/-- `m · 10 ^ e` by one multiplication or a division, if it is in the range. -/
def quickFloat (m : Nat) (e : Int) : Option Float :=
  if m = 0 then some 0.0
  else if e < 0 then some (dividedBy 4 (Float.ofNat m) e.natAbs)
  else if greatestPower < e then none
  else
    let x := Float.ofNat m * powerOfTen e.toNat
    if x.isFinite then some x else none

/-! ## Rounding -/

/-- How a numeral that is not a whole number of 64 bits becomes a binary64 number. -/
inductive Rounding where
  /-- The nearest number. -/
  | nearest
  /-- A number near it, found with two roundings of its leading digits. -/
  | quick
  deriving DecidableEq, Repr

def Numeral.float? (r : Rounding) (n : Numeral) : Option Float :=
  let x := match r with
    | .nearest => if n.nearest.isFinite then some n.nearest else none
    | .quick => quickFloat n.leading.1 n.leading.2
  x.map fun x => if n.negative then -x else x

def Numeral.numberBy (r : Rounding) (n : Numeral) : Except Break Number :=
  match n.integer? with
  | some i => .ok (.integer i)
  | none =>
    match n.float? r with
    | some x => .ok (.real x)
    | none => .error .malformed

/-- Documents are read quickly. -/
def Numeral.number (n : Numeral) : Except Break Number :=
  n.numberBy .quick

/-! ## Values -/

def insertMember {α : Type} (key : String) (value : α) :
    List (String × α) → List (String × α)
  | [] => [(key, value)]
  | (k, v) :: rest =>
    if key < k then (key, value) :: (k, v) :: rest
    else if key = k then (key, value) :: rest
    else (k, v) :: insertMember key value rest

def Ending.kept : Ending → Except Break Unit
  | .closed => .ok ()
  | .unclosed why => .error why
  | .dangling why => .error why

mutual

/-- Keeps a value; `depth` counts the brackets that may still be opened. -/
def Node.value (r : Rounding) (depth : Nat) : Node → Except Break Value
  | .null => .ok .null
  | .boolean b => .ok (.boolean b)
  | .numeral n => (n.numberBy r).map .number
  | .brokenNumeral why => .error why
  | .literal l => l.text.map .text
  | .array items =>
    if depth ≤ 1 then .error .malformed else (items.values r (depth - 1)).map .array
  | .object members =>
    if depth ≤ 1 then .error .malformed else (members.values r (depth - 1) []).map .object
  | .broken why => .error why

def Items.values (r : Rounding) (depth : Nat) : Items → Except Break (List Value)
  | .ending e => e.kept.map fun _ => []
  | .item node rest =>
    match node.value r depth with
    | .error why => .error why
    | .ok v => (rest.values r depth).map (v :: ·)

def Members.values (r : Rounding) (depth : Nat) :
    Members → List (String × Value) → Except Break (List (String × Value))
  | .ending e, kept => e.kept.map fun _ => kept
  | .member key node rest, kept =>
    match key.text with
    | .error why => .error why
    | .ok k =>
      match node.value r depth with
      | .error why => .error why
      | .ok v => rest.values r depth (insertMember k v kept)

end

/-! ## Skipped values -/

def Literal.skip (l : Literal) : Except Break Unit :=
  match l.broken with
  | none => .ok ()
  | some why => .error why

mutual

/-- A skipped value only has to be shaped like JSON. -/
def Node.skip : Node → Except Break Unit
  | .null => .ok ()
  | .boolean _ => .ok ()
  | .numeral _ => .ok ()
  | .brokenNumeral _ => .error .malformed
  | .literal l => l.skip
  | .array items => items.skip
  | .object members => members.skip
  | .broken why => .error why

def Items.skip : Items → Except Break Unit
  | .ending e => e.kept
  | .item node rest =>
    match node.skip with
    | .error why => .error why
    | .ok _ => rest.skip

def Members.skip : Members → Except Break Unit
  | .ending e => e.kept
  | .member key node rest =>
    match key.skip with
    | .error why => .error why
    | .ok _ =>
      match node.skip with
      | .error why => .error why
      | .ok _ => rest.skip

end

end PerfGate.Json
