import EarleyChart.Chart.Basic
import EarleyChart.Value.Display

/-!
Contract: charts as text, a block of lines for each column.

A block starts with the number of the column and the token that led there. An item is its
production with the dot, its origin and its state, and the value of a complete item if asked for.
-/

namespace EarleyChart

/-- What is shown of a chart. -/
structure ChartPrinter where
  indent : String := "  "
  showsValues : Bool := false
  completeOnly : Bool := false
deriving DecidableEq, Repr

namespace ChartPrinter

/-- The state of an item in words. -/
def state (item : Item) : String :=
  if item.isComplete then "complete"
  else if item.dot = 0 then "predicted"
  else "in progress"

/-- The line of an item. -/
def printItem (printer : ChartPrinter) (grammar : Grammar) (item : Item) : String :=
  let value := match printer.showsValues, item.value? with
    | true, some value => " = " ++ value.display
    | _, _ => ""
  printer.indent ++ grammar.dotted item.production item.dot
    ++ s!", {item.origin} [{state item}]" ++ value ++ "\n"

/-- The first line of a column. -/
def printHead (index : Nat) (token : Option Token) : String :=
  match token with
  | some token => s!"S{index}: {token.display}\n"
  | none => s!"S{index}:\n"

/-- The block of a column, if the chart has it. -/
def printColumn (printer : ChartPrinter) (grammar : Grammar) (chart : Chart) (index : Nat) :
    String :=
  match chart.column? index with
  | none => ""
  | some column =>
      let shown := column.items.toList.filter fun item => !printer.completeOnly || item.isComplete
      printHead index column.token ++ String.join (shown.map (printer.printItem grammar))

/-- The blocks of all columns. -/
def print (printer : ChartPrinter) (grammar : Grammar) (chart : Chart) : String :=
  String.join ((List.range chart.size).map (printer.printColumn grammar chart))

end ChartPrinter

end EarleyChart
