import EarleyChart.Decimal.Style
import EarleyChart.Text.Quoted
import EarleyChart.Value.Basic

/-!
Contract: values as text for people.

`Value.display` writes data in the manner of JSON with quoted texts and a token between
backquotes. `Value.inspect` names each value's kind and is used for the constants of a grammar.
-/

namespace EarleyChart.Value

/-- Texts with a comma between neighbours. -/
def commaSeparated (parts : List String) : String :=
  String.intercalate ", " parts

mutual

/-- The displayed form of a value. -/
def display : Value → String
  | .nil => "null"
  | .bool b => if b then "true" else "false"
  | .int n => toString n.toInt
  | .float x => Decimal.Style.display.write x
  | .string s => Quoted.text s
  | .array items => "[" ++ commaSeparated (displayItems items) ++ "]"
  | .map entries => "\x7b" ++ commaSeparated (displayEntries entries) ++ "\x7d"
  | .token t => t.display
termination_by structural value => value

def displayItems : List Value → List String
  | [] => []
  | item :: rest => display item :: displayItems rest
termination_by structural items => items

def displayEntries : List (String × Value) → List String
  | [] => []
  | (key, value) :: rest => (Quoted.text key ++ ": " ++ display value) :: displayEntries rest
termination_by structural entries => entries

end

mutual

/-- The inspected form of a value. -/
def inspect : Value → String
  | .nil => "Nil"
  | .bool b => if b then "Bool(true)" else "Bool(false)"
  | .int n => "Int(" ++ toString n.toInt ++ ")"
  | .float x => "Float(" ++ Decimal.Style.inspect.write x ++ ")"
  | .string s => "String(" ++ Quoted.text s ++ ")"
  | .array items => "Array([" ++ commaSeparated (inspectItems items) ++ "])"
  | .map entries => "Map(\x7b" ++ commaSeparated (inspectEntries entries) ++ "\x7d)"
  | .token t => "Token(" ++ t.display ++ ")"
termination_by structural value => value

def inspectItems : List Value → List String
  | [] => []
  | item :: rest => inspect item :: inspectItems rest
termination_by structural items => items

def inspectEntries : List (String × Value) → List String
  | [] => []
  | (key, value) :: rest => (Quoted.text key ++ ": " ++ inspect value) :: inspectEntries rest
termination_by structural entries => entries

end

end EarleyChart.Value
