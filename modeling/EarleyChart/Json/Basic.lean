/-!
Contract: JSON documents.

A document is what a JSON text means: numbers are integers or doubles, and the members of an
object stand in the order of the text, repeated keys included.
-/

namespace EarleyChart

/-- A JSON document. -/
inductive Json where
  | null
  | bool (b : Bool)
  | int (n : Int)
  | float (x : Float)
  | string (s : String)
  | array (items : List Json)
  | object (members : List (String × Json))
deriving Inhabited

namespace Json

/-- The members of an object that have the given key. -/
def membersNamed (key : String) (members : List (String × Json)) : List Json :=
  members.filterMap fun member => if member.1 = key then some member.2 else none

/-- A natural number that fits 64 bits. -/
def asNat? : Json → Option Nat
  | int n => if 0 ≤ n ∧ n ≤ 18446744073709551615 then some n.toNat else none
  | _ => none

end Json

end EarleyChart
