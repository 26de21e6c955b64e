import EarleyChart.Chart.Item

/-!
Contract: the ways in which a chart can contradict itself, with their wording.

A parse of a built grammar meets none of them. They arise for charts that are put together by
hand.
-/

namespace EarleyChart

/-- A contradiction in a chart. -/
inductive ChartFault where
  | originAfterColumn (origin column : Nat)
  | skippedColumn (column columns : Nat)
  | missingValue (item : ItemRef)
  | originOutsideChart (item : ItemRef) (origin : Nat)
  | missingAdvance (item : ItemRef)
  | unknownProduction (id : ProductionId)
  | missingColumn (column : Nat)
  | endlessChain (item : ItemRef)
  | missingItem (item : ItemRef)
  | missingToken (column : Nat)
  | other (reason : String)
deriving DecidableEq, Repr

def ChartFault.message : ChartFault → String
  | originAfterColumn origin column =>
      s!"item with origin {origin} inserted into earlier column {column}"
  | skippedColumn column columns => s!"column {column} skipped (chart has {columns} columns)"
  | missingValue item => s!"item {item.inspect} has matched its rhs but holds no value"
  | originOutsideChart item origin => s!"item {item.inspect} has origin {origin} beyond the chart"
  | missingAdvance item => s!"advancing missing item {item.inspect}"
  | unknownProduction id => s!"production {id} is not in the grammar"
  | missingColumn column => s!"diagnosis asked for missing column {column}"
  | endlessChain item => s!"derivation chain from {item.inspect} does not terminate"
  | missingItem item => s!"provenance points at missing item {item.inspect}"
  | missingToken column => s!"no token recorded for column {column}"
  | other reason => reason

end EarleyChart
