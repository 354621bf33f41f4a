import PerfGate.Json.Value
import PerfGate.Json.Reader
import PerfGate.Decimal.Style
import PerfGate.Text.Quoted

/-!
# Decoding documents into types

A decoder turns a node into a value of a type, or tells the first thing wrong with it in the
order of the text. A record is described by a list of fields. It may be written as an object,
with its members in any order and unknown members skipped, or as an array of its fields in
their declared order. A field given twice is noticed at its second key, a missing one at the
closing brace.
-/

set_option autoImplicit false

namespace PerfGate.Json

universe u

/-! ## What can be wrong -/

inductive Found where
  | null
  | boolean (b : Bool)
  | number (n : Number)
  | text (s : String)
  | sequence
  | map

inductive Mismatch where
  | wrongType (found : Found) (expected : String)
  | outOfRange (n : Int) (expected : String)
  | missing (field : String)
  | duplicate (field : String)
  | tooShort (length : Nat) (expected : String)

inductive Fault where
  | broken (why : Break)
  | mismatch (what : Mismatch)

/-- A finite number as JSON; the exceptional values have none and are written `null`. -/
def numberText (x : Float) : String :=
  match Decimal.Binary.ofFloat x with
  | .finite negative m q => String.ofList (Decimal.json.finite negative m q)
  | _ => "null"

def Found.message : Found → String
  | .null => "null"
  | .boolean b => "boolean `" ++ (if b then "true" else "false") ++ "`"
  | .number (.integer n) => "integer `" ++ toString n ++ "`"
  | .number (.real x) => "floating point `" ++ numberText x ++ "`"
  | .text s => "string " ++ Text.quoted s
  | .sequence => "sequence"
  | .map => "map"

def Mismatch.message : Mismatch → String
  | .wrongType found expected => "invalid type: " ++ found.message ++ ", expected " ++ expected
  | .outOfRange n expected => "invalid value: integer `" ++ toString n ++ "`, expected " ++ expected
  | .missing field => "missing field `" ++ field ++ "`"
  | .duplicate field => "duplicate field `" ++ field ++ "`"
  | .tooShort length expected => "invalid length " ++ toString length ++ ", expected " ++ expected

def Fault.message : Fault → String
  | .broken .malformed => "malformed JSON"
  | .broken .cut => "unexpected end of JSON"
  | .mismatch what => what.message

/-! ## Decoders of plain values -/

abbrev Decoder (α : Type) := Node → Except Fault α

def kept {α : Type u} : Except Break α → Except Fault α
  | .ok a => .ok a
  | .error why => .error (.broken why)

def Node.refuse {α : Type} (expected : String) (node : Node) : Except Fault α :=
  let wrong (found : Found) : Except Fault α := .error (.mismatch (.wrongType found expected))
  match node with
  | .null => wrong .null
  | .boolean b => wrong (.boolean b)
  | .numeral n =>
    match n.number with
    | .ok n => wrong (.number n)
    | .error why => .error (.broken why)
  | .brokenNumeral why => .error (.broken why)
  | .literal l =>
    match l.text with
    | .ok s => wrong (.text s)
    | .error why => .error (.broken why)
  | .array _ => wrong .sequence
  | .object _ => wrong .map
  | .broken why => .error (.broken why)

def text : Decoder String
  | .literal l => kept l.text
  | node => node.refuse "a string"

def realBy (r : Rounding) : Decoder Float
  | .numeral n => kept ((n.numberBy r).map Number.toFloat)
  | node => node.refuse "f64"

def real : Decoder Float :=
  realBy .quick

/-- A whole number from `least` to `greatest`. -/
def whole (expected : String) (least greatest : Int) : Decoder Int
  | .numeral n =>
    match n.number with
    | .error why => .error (.broken why)
    | .ok (.integer i) =>
      if least ≤ i ∧ i ≤ greatest then .ok i else .error (.mismatch (.outOfRange i expected))
    | .ok (.real x) => .error (.mismatch (.wrongType (.number (.real x)) expected))
  | node => node.refuse expected

def integer : Decoder Int :=
  whole "i64" (-(signedLimit : Int)) (signedLimit - 1)

def count : Decoder Nat := fun node =>
  (whole "usize" 0 (unsignedLimit - 1) node).map Int.toNat

def optional {α : Type} (decode : Decoder α) : Decoder (Option α)
  | .null => .ok none
  | node => (decode node).map some

/-! ## Lists and maps -/

def decodeItems {α : Type} (decode : Decoder α) : Items → Except Fault (List α)
  | .ending e => kept (e.kept.map fun _ => [])
  | .item node rest =>
    match decode node with
    | .error fault => .error fault
    | .ok a => (decodeItems decode rest).map (a :: ·)

def list {α : Type} (decode : Decoder α) : Decoder (List α)
  | .array items => decodeItems decode items
  | node => node.refuse "a sequence"

def foldMembers {σ : Type} (step : σ → String → Node → Except Fault σ) :
    Members → σ → Except Fault σ
  | .ending e, state => kept (e.kept.map fun _ => state)
  | .member key node rest, state =>
    match key.text with
    | .error why => .error (.broken why)
    | .ok k =>
      match step state k node with
      | .error fault => .error fault
      | .ok state => foldMembers step rest state

/-- Members in ascending order of their keys, the last of equal keys winning. -/
def map {α : Type} (decode : Decoder α) : Decoder (List (String × α))
  | .object members =>
    foldMembers (fun state k node => (decode node).map (insertMember k · state)) members []
  | node => node.refuse "a map"

/-! ## Records -/

/-- A field of a record; one that may be left out has a value for that case. -/
structure Field (α : Type) where
  name : String
  decode : Decoder α
  absent : Option α

def required {α : Type} (name : String) (decode : Decoder α) : Field α :=
  ⟨name, decode, none⟩

def omissible {α : Type} (name : String) (decode : Decoder α) : Field (Option α) :=
  ⟨name, optional decode, some none⟩

/-- The fields of a record in their declared order, each with the value read for it. -/
inductive Slots : Type → Type 1 where
  | done : Slots Unit
  | field {α β : Type} (f : Field α) (value : Option α) (rest : Slots β) : Slots (α × β)

namespace Slots

def names {τ : Type} : Slots τ → List String
  | .done => []
  | .field f _ rest => f.name :: rest.names

def put {τ : Type} (key : String) (node : Node) : Slots τ → Except Fault (Slots τ)
  | .done => (kept node.skip).map fun _ => .done
  | .field f value rest =>
    if f.name = key then
      match value with
      | some _ => .error (.mismatch (.duplicate key))
      | none => (f.decode node).map fun a => .field f (some a) rest
    else (put key node rest).map fun rest => .field f value rest

def putAll {τ : Type} : Members → Slots τ → Except Fault (Slots τ)
  | .ending e, slots => kept (e.kept.map fun _ => slots)
  | .member key node rest, slots =>
    match key.text with
    | .error why => .error (.broken why)
    | .ok k =>
      match slots.put k node with
      | .error fault => .error fault
      | .ok slots => putAll rest slots

def finish {τ : Type} : Slots τ → Except Fault τ
  | .done => .ok ()
  | .field f value rest =>
    match value <|> f.absent with
    | none => .error (.mismatch (.missing f.name))
    | some a => rest.finish.map fun b => (a, b)

/-- What may follow the last field of a record written as an array. -/
def closing : Items → Except Break Unit
  | .ending .closed => .ok ()
  | .ending (.unclosed why) => .error why
  | .ending (.dangling _) => .error .malformed
  | .item _ _ => .error .malformed

def ofItems {τ : Type} (expected : String) : Slots τ → Nat → Items → Except Fault τ
  | .done, _, items => kept (closing items)
  | .field f _ rest, index, .item node items =>
    match f.decode node with
    | .error fault => .error fault
    | .ok a => (ofItems expected rest (index + 1) items).map fun b => (a, b)
  | .field f _ rest, index, .ending e =>
    match e.kept with
    | .error why => .error (.broken why)
    | .ok _ =>
      match f.absent with
      | none => .error (.mismatch (.tooShort index expected))
      | some a => (ofItems expected rest (index + 1) (.ending e)).map fun b => (a, b)

end Slots

def record {τ : Type} (name : String) (slots : Slots τ) : Decoder τ
  | .object members =>
    match slots.putAll members with
    | .error fault => .error fault
    | .ok slots => slots.finish
  | .array items =>
    let size := toString slots.names.length
    slots.ofItems ("struct " ++ name ++ " with " ++ size ++ " elements") 0 items
  | node => node.refuse ("struct " ++ name)

/-! ## Texts -/

/-- Decodes a whole text; nothing but blanks may follow the value. -/
def decode {α : Type} (decoder : Decoder α) (s : String) : Except Fault α :=
  let document := read s
  match decoder document.root with
  | .error fault => .error fault
  | .ok a => if document.alone then .ok a else .error (.broken .malformed)

end PerfGate.Json
