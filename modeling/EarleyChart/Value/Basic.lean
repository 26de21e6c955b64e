import EarleyChart.Token

/-!
Contract: the values that reductions produce.

A value is data in the manner of JSON, or a token that no reduction has converted. The entries of
a map are kept in increasing order of their keys, each key once; `Value.insertEntry` keeps that order
and overwrites, so `Value.ofEntries` lets the last entry of a key win.
-/

namespace EarleyChart

/-- A dynamically typed value. -/
inductive Value where
  | nil
  | bool (b : Bool)
  | int (n : Int64)
  | float (x : Float)
  | string (s : String)
  | array (items : List Value)
  | map (entries : List (String × Value))
  | token (t : Token)
deriving Inhabited

namespace Value

/-- Adds an entry at the place of its key, in place of an entry with the same key. -/
def insertEntry (key : String) (value : Value) : List (String × Value) → List (String × Value)
  | [] => [(key, value)]
  | (other, kept) :: rest =>
      if key < other then (key, value) :: (other, kept) :: rest
      else if key = other then (key, value) :: rest
      else (other, kept) :: insertEntry key value rest

/-- The map of a list of entries; the last entry of a key wins. -/
def ofEntries (entries : List (String × Value)) : Value :=
  .map (entries.foldl (fun sorted entry => insertEntry entry.1 entry.2 sorted) [])

def isNil : Value → Bool
  | nil => true
  | _ => false

def asBool? : Value → Option Bool
  | bool b => some b
  | _ => none

def asInt? : Value → Option Int64
  | int n => some n
  | _ => none

/-- The number of a double, or of an integer widened to one. -/
def asFloat? : Value → Option Float
  | float x => some x
  | int n => some n.toFloat
  | _ => none

def asString? : Value → Option String
  | string s => some s
  | _ => none

def asArray? : Value → Option (List Value)
  | array items => some items
  | _ => none

def asMap? : Value → Option (List (String × Value))
  | map entries => some entries
  | _ => none

def asToken? : Value → Option Token
  | token t => some t
  | _ => none

/-- The value of a key of a map. -/
def get? (value : Value) (key : String) : Option Value :=
  value.asMap?.bind (·.lookup key)

/-- The element of an array at an index. -/
def getIndex? (value : Value) (index : Nat) : Option Value :=
  value.asArray?.bind (·[index]?)

mutual

/-- Whether two values are the same data, doubles compared as numbers. -/
def beq : Value → Value → Bool
  | .nil, .nil => true
  | .bool a, .bool b => a == b
  | .int a, .int b => a == b
  | .float a, .float b => a == b
  | .string a, .string b => a == b
  | .array a, .array b => beqItems a b
  | .map a, .map b => beqEntries a b
  | .token a, .token b => a == b
  | _, _ => false
termination_by structural value => value

def beqItems : List Value → List Value → Bool
  | [], [] => true
  | a :: as, b :: bs => beq a b && beqItems as bs
  | _, _ => false
termination_by structural items => items

def beqEntries : List (String × Value) → List (String × Value) → Bool
  | [], [] => true
  | (key, a) :: as, (other, b) :: bs => key == other && beq a b && beqEntries as bs
  | _, _ => false
termination_by structural entries => entries

end

instance : BEq Value :=
  ⟨beq⟩

end Value

end EarleyChart
