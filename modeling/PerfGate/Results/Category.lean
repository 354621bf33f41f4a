import PerfGate.Text.Pattern

/-!
# Operation categories

An operation belongs to a category when its name contains the pattern of the category
anywhere, so an operation on a thousand rows also belongs to the category of a hundred.
-/

set_option autoImplicit false

namespace PerfGate

inductive OperationCategory where
  | singleRow
  | bulk100
  | bulk1000
  deriving DecidableEq, Repr

namespace OperationCategory

def all : List OperationCategory := [.singleRow, .bulk100, .bulk1000]

def pattern : OperationCategory → String
  | .singleRow => "single_row"
  | .bulk100 => "bulk_100"
  | .bulk1000 => "bulk_1000"

def label : OperationCategory → String
  | .singleRow => "Single Row Operations"
  | .bulk100 => "Bulk 100 Row Operations"
  | .bulk1000 => "Bulk 1000 Row Operations"

def contains (category : OperationCategory) (operation : String) : Bool :=
  Text.contains operation category.pattern

end OperationCategory

end PerfGate
