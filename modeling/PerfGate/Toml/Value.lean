/-!
# TOML values

Tables remember how they came to be: by a header of their own, by a longer header that passes
through them, by a dotted key, or inline. What may still be added to a table depends on it.
The entries of a table are in the order in which they were defined.
-/

set_option autoImplicit false

namespace PerfGate.Toml

inductive Origin where
  | header
  | passed
  | dotted
  | inline
  deriving DecidableEq, Repr

inductive Value where
  | text (s : String)
  | integer (n : Int)
  | real (x : Float)
  | boolean (b : Bool)
  /-- A date, a time of day, or both. -/
  | moment
  | array (items : List Value)
  | table (origin : Origin) (entries : List (String × Value))
  /-- The tables of a header in double brackets. -/
  | tables (elements : List Value)

instance : Inhabited Value := ⟨.moment⟩

abbrev Entries := List (String × Value)

def Entries.put (entries : Entries) (key : String) (value : Value) : Entries :=
  match entries with
  | [] => [(key, value)]
  | (k, v) :: rest => if k = key then (k, value) :: rest else (k, v) :: Entries.put rest key value

end PerfGate.Toml
