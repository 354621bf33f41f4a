import PerfGate.Results.Row
import PerfGate.Text.Pattern
import Std.Data.HashMap

/-!
# Pairing incremental and full refreshes

Each incremental row is joined with the full-refresh row of the same scenario, test and
scale whose operation has the same stem. An index over the full-refresh rows makes the join
one pass; of rows with the same key the last one stays in the index. Rows without a partner
and rows whose time is not positive give nothing. The comparisons are ordered by their
ratio, the greatest first, and equal ratios stay in the order of the incremental rows.
-/

set_option autoImplicit false

namespace PerfGate

namespace Pairing

def incrementalSuffix : String := "_incremental"

def fullRefreshSuffix : String := "_full_refresh"

structure Key where
  scenario : String
  testName : String
  scale : String
  operation : String
  deriving DecidableEq, Hashable

def keyOf (row : ResultRow) : Key :=
  ⟨row.scenario, row.testName, row.scale, row.operation⟩

abbrev Index := Std.HashMap Key ResultRow

def index (rows : List ResultRow) : Index :=
  rows.foldl
    (fun found row =>
      if Text.endsWith row.operation fullRefreshSuffix then found.insert (keyOf row) row
      else found)
    ∅

def partnerKey? (row : ResultRow) : Option Key :=
  (Text.stem? row.operation incrementalSuffix).map fun stem =>
    { keyOf row with operation := stem ++ fullRefreshSuffix }

def compared (full row : ResultRow) : ComparisonRow where
  scenario := row.scenario
  testName := row.testName
  scale := row.scale
  operation := row.operation
  rowsAffected := row.rowsAffected
  baseline := full.time
  incremental := row.time
  ratio := full.time / row.time
  saved := full.time - row.time

/-- The word of a ratio. What is not a number has the word of the first time that is none,
made quiet, or else the one that an undefined quotient has. -/
def ratioWord (full row : ResultRow) : UInt64 :=
  let ratio := full.time / row.time
  if ratio.isNaN then
    if full.time.isNaN then full.timeWord.word ||| 0x0008000000000000
    else if row.time.isNaN then row.timeWord.word ||| 0x0008000000000000
    else 0xfff8000000000000
  else ratio.toBits

/-- The place of a word in the total order of words, in which negative zero comes before zero
and what is not a number before or after all numbers, by its sign. -/
def orderKey (word : UInt64) : Int :=
  let bits := word.toNat
  if bits < Decimal.Binary.signBit then bits else -(bits - Decimal.Binary.signBit : Nat) - 1

structure Ranked where
  rank : Int
  row : ComparisonRow

def join? (found : Index) (row : ResultRow) : Option Ranked := do
  let key ← partnerKey? row
  let full ← found[key]?
  if row.time ≤ 0.0 then none else some ⟨orderKey (ratioWord full row), compared full row⟩

def joined (rows : List ResultRow) : List Ranked :=
  rows.filterMap (join? (index rows))

end Pairing

open Pairing in
def pairComparisons (rows : List ResultRow) : List ComparisonRow :=
  ((joined rows).mergeSort fun a b => b.rank ≤ a.rank).map (·.row)

end PerfGate
