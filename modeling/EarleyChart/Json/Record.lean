import EarleyChart.Json.Number

/-!
Contract: reading documents and records from JSON trees.

A document nests at most 127 containers; `room` is how many may still be entered. A record is an
object whose members are found by name, or an array of the fields in order. Members of other
names are not looked at: what they hold may be out of range or nested to any depth.
-/

namespace EarleyChart.Json

/-- How many containers may be nested in each other. -/
def maxNesting : Nat :=
  127

namespace Tree

mutual

/-- The document that a tree writes, if it nests no deeper than `room`, every number is in range
and every string has a text. -/
def toJson? (room : Nat) : Tree → Option Json
  | .null => some .null
  | .bool b => some (.bool b)
  | .number numeral => numeral.toJson?
  | .string s => s.map .string
  | .array items =>
      if room = 0 then none else (itemsToJson? (room - 1) items).map .array
  | .object members =>
      if room = 0 then none else (membersToJson? (room - 1) members).map .object
termination_by structural tree => tree

def itemsToJson? (room : Nat) : List Tree → Option (List Json)
  | [] => some []
  | item :: rest => do
      let item ← toJson? room item
      let rest ← itemsToJson? room rest
      return item :: rest
termination_by structural items => items

def membersToJson? (room : Nat) : List (Option String × Tree) → Option (List (String × Json))
  | [] => some []
  | (key, value) :: rest => do
      let key ← key
      let value ← toJson? room value
      let rest ← membersToJson? room rest
      return (key, value) :: rest
termination_by structural members => members

end

/-- The value of a named field, if the object has one; having two is refused. -/
def field? (members : List (String × Tree)) (name : String) : Option (Option Tree) :=
  match members.filter (·.1 = name) with
  | [] => some none
  | [member] => some (some member.2)
  | _ => none

/-- Each key of an object with its value, if all keys have a text. -/
def keyed? (members : List (Option String × Tree)) : Option (List (String × Tree)) :=
  members.mapM fun member => member.1.map (·, member.2)

/-- The fields of a record, by name from an object or in order from an array. A field that is not
there is `none`. -/
def fields? (names : List String) : Tree → Option (List (Option Tree))
  | .object members => (keyed? members).bind fun members => names.mapM (field? members)
  | .array items =>
      if items.length ≤ names.length then
        some (items.map some ++ List.replicate (names.length - items.length) none)
      else none
  | _ => none

def asString? : Tree → Option String
  | .string s => s
  | _ => none

def asBool? : Tree → Option Bool
  | .bool b => some b
  | _ => none

/-- An integer of 32 bits with a sign. -/
def asInt32? : Tree → Option Int
  | .number numeral =>
      match numeral.toJson? with
      | some (.int n) => if -2147483648 ≤ n ∧ n ≤ 2147483647 then some n else none
      | _ => none
  | _ => none

/-- The items of an array, each read by `read`. -/
def asList? {α : Type} (read : Tree → Option α) : Tree → Option (List α)
  | .array items => items.mapM read
  | _ => none

/-- What `read` gives, or `none` for a null. -/
def orNull? {α : Type} (read : Tree → Option α) : Tree → Option (Option α)
  | .null => some none
  | tree => (read tree).map some

end Tree

/-- The document that a text writes. -/
def read? (text : String) : Option Json :=
  (Tree.read? text).bind (·.toJson? maxNesting)

end EarleyChart.Json
