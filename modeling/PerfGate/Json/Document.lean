/-!
# JSON documents, whole or broken

A text is read into a tree as far as it goes. Where it stops being JSON the tree says so in
place: a broken node, a literal that does not end, a list that is not closed. A decoder walks
the tree in the order of the text, so the first thing wrong in the text, whether it is a
misplaced character or a value of the wrong type, is the first thing it meets.

Two readings of a document differ in what they look at. A value that is kept has its
strings, numbers and depth checked; a value that is skipped only has to be shaped like JSON.
The tree therefore keeps the pieces of literals and the digits of numerals as written.
-/

set_option autoImplicit false

namespace PerfGate.Json

inductive Break where
  | malformed
  | cut
  deriving DecidableEq, Repr

/-- A character of a literal, or a 16-bit unit written as an escape. -/
inductive Piece where
  | char (c : Char)
  | unit (n : Nat)
  deriving DecidableEq, Repr

/-- The pieces between the quotes; `broken` is `none` when the closing quote is there. -/
structure Literal where
  pieces : List Piece
  broken : Option Break
  deriving DecidableEq, Repr

/-- A number as written; `fraction` and the digits of `exponent` are not empty. -/
structure Numeral where
  negative : Bool
  whole : List Char
  fraction : Option (List Char)
  exponent : Option (Bool × List Char)
  deriving DecidableEq, Repr

/-- How a list ends: closed, without comma or bracket, or after a comma. -/
inductive Ending where
  | closed
  | unclosed (why : Break)
  | dangling (why : Break)
  deriving DecidableEq, Repr

mutual

inductive Node where
  | null
  | boolean (b : Bool)
  | numeral (n : Numeral)
  | brokenNumeral (why : Break)
  | literal (l : Literal)
  | array (items : Items)
  | object (members : Members)
  | broken (why : Break)

inductive Items where
  | ending (e : Ending)
  | item (value : Node) (rest : Items)

inductive Members where
  | ending (e : Ending)
  | member (key : Literal) (value : Node) (rest : Members)

end

instance : Inhabited Node := ⟨.null⟩

/-- A document is a node and what follows it: nothing but blanks, or something. -/
structure Document where
  root : Node
  alone : Bool

end PerfGate.Json
