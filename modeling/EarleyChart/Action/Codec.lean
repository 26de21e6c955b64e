import EarleyChart.Action.Basic
import EarleyChart.Json.Record
import EarleyChart.Value.Display
import EarleyChart.Value.Json

/-!
Contract: actions as JSON records.

An action is an object with its kind and its fields, the kind at any place, or an array of the
kind and the fields in order. Members of other names are ignored in the object, but they must be
documents themselves.
-/

namespace EarleyChart.Action

/-- The kind of an action in JSON. -/
def kind : Action → String
  | pick _ => "pick"
  | constant _ => "constant"
  | number _ => "number"
  | unquote _ => "unquote"
  | text _ => "text"
  | singleton _ => "singleton"
  | cons _ _ => "cons"
  | emptyList => "empty_list"
  | emptyMap => "empty_map"
  | entries _ => "entries"
  | pair _ _ => "pair"

/-- The fields of an action in JSON. -/
def fields : Action → List (String × Json)
  | pick index => [("index", .int index)]
  | constant value => [("value", value.toRecordJson)]
  | number index => [("index", .int index)]
  | unquote index => [("index", .int index)]
  | text index => [("index", .int index)]
  | singleton index => [("index", .int index)]
  | cons head tail => [("head", .int head), ("tail", .int tail)]
  | emptyList => []
  | emptyMap => []
  | entries index => [("index", .int index)]
  | pair key value => [("key", .int key), ("value", .int value)]

/-- The record of an action. -/
def toJson (action : Action) : Json :=
  .object (("kind", .string action.kind) :: action.fields)

/-- The names of the fields of each kind of action. -/
def fieldNames? (kind : String) : Option (List String) :=
  match kind with
  | "pick" | "number" | "unquote" | "text" | "singleton" | "entries" => some ["index"]
  | "constant" => some ["value"]
  | "cons" => some ["head", "tail"]
  | "empty_list" | "empty_map" => some []
  | "pair" => some ["key", "value"]
  | _ => none

/-- The action of a kind with the given fields. -/
def ofFields? (kind : String) (fields : List Json) : Option Action :=
  match kind, fields with
  | "pick", [index] => index.asNat?.map pick
  | "constant", [value] => some (constant (Value.ofJson value))
  | "number", [index] => index.asNat?.map number
  | "unquote", [index] => index.asNat?.map unquote
  | "text", [index] => index.asNat?.map text
  | "singleton", [index] => index.asNat?.map singleton
  | "cons", [head, tail] => do return cons (← head.asNat?) (← tail.asNat?)
  | "empty_list", [] => some emptyList
  | "empty_map", [] => some emptyMap
  | "entries", [index] => index.asNat?.map entries
  | "pair", [key, value] => do return pair (← key.asNat?) (← value.asNat?)
  | _, _ => none

/-- The one member with a name. -/
def onlyMember? (members : List (String × Json)) (name : String) : Option Json :=
  match Json.membersNamed name members with
  | [value] => some value
  | _ => none

/-- The action of a record. -/
def ofJson? : Json → Option Action
  | .object members =>
      match onlyMember? members "kind" with
      | some (.string kind) => do
          let names ← fieldNames? kind
          let fields ← names.mapM (onlyMember? members)
          ofFields? kind fields
      | _ => none
  | .array (.string kind :: fields) => ofFields? kind fields
  | _ => none

/-- The action that a tree writes. -/
def ofTree? (room : Nat) (tree : Json.Tree) : Option Action :=
  (tree.toJson? room).bind ofJson?

/-- The action that a text writes. -/
def read? (text : String) : Option Action :=
  (Json.read? text).bind ofJson?

/-- The inspected form of an action. -/
def inspect (action : Action) : String :=
  let record (name : String) (fields : List String) : String :=
    name ++ " \x7b " ++ Value.commaSeparated fields ++ " \x7d"
  match action with
  | pick index => record "Pick" [s!"index: {index}"]
  | constant value => record "Constant" ["value: " ++ value.inspect]
  | number index => record "Number" [s!"index: {index}"]
  | unquote index => record "Unquote" [s!"index: {index}"]
  | text index => record "Text" [s!"index: {index}"]
  | singleton index => record "Singleton" [s!"index: {index}"]
  | cons head tail => record "Cons" [s!"head: {head}", s!"tail: {tail}"]
  | emptyList => "EmptyList"
  | emptyMap => "EmptyMap"
  | entries index => record "Entries" [s!"index: {index}"]
  | pair key value => record "Pair" [s!"key: {key}", s!"value: {value}"]

end EarleyChart.Action

namespace EarleyChart

/-- The inspected form of a reducer. -/
def Reducer.inspect : Reducer → String
  | .builtin action => action.inspect
  | .custom _ => "Custom(<fn>)"

end EarleyChart
