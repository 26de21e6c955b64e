import EarleyChart.Decimal.Binary
import EarleyChart.Json.Basic
import EarleyChart.Value.Basic

/-!
Contract: values as JSON documents and back.

A token becomes its text in `Value.toJson` and a record of its fields in `Value.toRecordJson`. A
double that is no finite number becomes null. Read back, an integer that does not fit 64 bits
with a sign becomes a double, and an object a map in which the last member of a key wins.
-/

namespace EarleyChart

/-- The record of a token's fields. -/
def Token.toJson (token : Token) : Json :=
  .object [("type", .string token.kind), ("text", .string token.text), ("line", .int token.line),
    ("column", .int token.column), ("offset", .int token.offset)]

namespace Value

/-- The document of a double. -/
def floatToJson (x : Float) : Json :=
  if x.isFinite then .float x else .null

mutual

/-- The document of a value, with `ofToken` for the tokens in it. -/
def toJsonWith (ofToken : Token → Json) : Value → Json
  | .nil => .null
  | .bool b => .bool b
  | .int n => .int n.toInt
  | .float x => floatToJson x
  | .string s => .string s
  | .array items => .array (itemsToJson ofToken items)
  | .map entries => .object (entriesToJson ofToken entries)
  | .token t => ofToken t
termination_by structural value => value

def itemsToJson (ofToken : Token → Json) : List Value → List Json
  | [] => []
  | item :: rest => toJsonWith ofToken item :: itemsToJson ofToken rest
termination_by structural items => items

def entriesToJson (ofToken : Token → Json) : List (String × Value) → List (String × Json)
  | [] => []
  | (key, value) :: rest => (key, toJsonWith ofToken value) :: entriesToJson ofToken rest
termination_by structural entries => entries

end

/-- The document of a value, tokens as their text. -/
def toJson (value : Value) : Json :=
  value.toJsonWith fun token => .string token.text

/-- The document of a value, tokens as records. -/
def toRecordJson (value : Value) : Json :=
  value.toJsonWith Token.toJson

/-- An integer, as a double where it does not fit 64 bits with a sign. -/
def ofInteger (n : Int) : Value :=
  if -9223372036854775808 ≤ n ∧ n ≤ 9223372036854775807 then .int (Int64.ofInt n)
  else .float (Decimal.Binary.nearest (n < 0) n.natAbs 1)

mutual

/-- The value of a document. -/
def ofJson : Json → Value
  | .null => .nil
  | .bool b => .bool b
  | .int n => ofInteger n
  | .float x => .float x
  | .string s => .string s
  | .array items => .array (ofJsonItems items)
  | .object members => ofEntries (ofJsonMembers members)
termination_by structural document => document

def ofJsonItems : List Json → List Value
  | [] => []
  | item :: rest => ofJson item :: ofJsonItems rest
termination_by structural items => items

def ofJsonMembers : List (String × Json) → List (String × Value)
  | [] => []
  | (key, value) :: rest => (key, ofJson value) :: ofJsonMembers rest
termination_by structural members => members

end

end Value

end EarleyChart
