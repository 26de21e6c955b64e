import EarleyChart.Decimal.Reading
import EarleyChart.Text.Literal
import EarleyChart.Value.Basic

/-!
Contract: how a finished production turns the values of its right-hand side into one.

An action names children by their index. Reading a child takes it away and leaves nil behind, so
that an action which names one child twice finds nil the second time; a child that is not there
is nil. A production may have a function of its own instead, and one without either keeps a
single child and gathers any other number of them in an array.
-/

namespace EarleyChart

/-- The built-in reductions. -/
inductive Action where
  | pick (index : Nat)
  | constant (value : Value)
  | number (index : Nat)
  | unquote (index : Nat)
  | text (index : Nat)
  | singleton (index : Nat)
  | cons (head tail : Nat)
  | emptyList
  | emptyMap
  | entries (index : Nat)
  | pair (key value : Nat)
deriving BEq, Inhabited

/-- The child at an index, and the children that are left. -/
def takeChild (children : List Value) (index : Nat) : Value × List Value :=
  ((children[index]?).getD .nil, children.set index .nil)

namespace Value

/-- The number that a text writes: an integer if it is one, else a double, else nil. -/
def ofNumberText (text : String) : Value :=
  match Decimal.readInt64? text.toList with
  | some n => .int n
  | none =>
      match Decimal.readFloat? text.toList with
      | some x => .float x
      | none => .nil

/-- The number of a token or text; a number stays itself and anything else is nil. -/
def toNumber : Value → Value
  | .token t => ofNumberText t.text
  | .string s => ofNumberText s
  | .int n => .int n
  | .float x => .float x
  | _ => .nil

/-- The text that a token spells; a text stays itself and anything else is nil. -/
def toUnquoted : Value → Value
  | .token t => .string (Literal.unquote t.text)
  | .string s => .string s
  | _ => .nil

/-- The text of a token; anything else stays itself. -/
def toText : Value → Value
  | .token t => .string t.text
  | other => other

/-- The elements of a list: those of an array, none of nil, and any other value as its only one. -/
def toItems : Value → List Value
  | .array items => items
  | .nil => []
  | single => [single]

/-- The entry that a pair of a key and a value makes; the key is a text or spelled by a token. -/
def toEntry? : Value → Option (String × Value)
  | .array [.string key, value] => some (key, value)
  | .array [.token t, value] => some (Literal.unquote t.text, value)
  | _ => none

/-- The map of an array's pairs; what is no pair is left out. -/
def toMap : Value → Value
  | .array items => ofEntries (items.filterMap toEntry?)
  | _ => ofEntries []

end Value

/-- Applies an action to the children of a production. -/
def Action.apply (action : Action) (children : List Value) : Value :=
  match action with
  | .pick index => (takeChild children index).1
  | .constant value => value
  | .number index => (takeChild children index).1.toNumber
  | .unquote index => (takeChild children index).1.toUnquoted
  | .text index => (takeChild children index).1.toText
  | .singleton index => .array [(takeChild children index).1]
  | .cons head tail =>
      let (first, rest) := takeChild children head
      .array (first :: (takeChild rest tail).1.toItems)
  | .emptyList => .array []
  | .emptyMap => .map []
  | .entries index => (takeChild children index).1.toMap
  | .pair key value =>
      let (first, rest) := takeChild children key
      .array [first, (takeChild rest value).1]

/-- How a production reduces its children. -/
inductive Reducer where
  | builtin (action : Action)
  | custom (reduce : List Value → Value)
deriving Inhabited

/-- The reduction of a production without a reducer. -/
def defaultReduce : List Value → Value
  | [child] => child
  | children => .array children

/-- Reduces the children of a production. -/
def Reducer.reduce (reducer : Option Reducer) (children : List Value) : Value :=
  match reducer with
  | some (.builtin action) => action.apply children
  | some (.custom reduce) => reduce children
  | none => defaultReduce children

end EarleyChart
