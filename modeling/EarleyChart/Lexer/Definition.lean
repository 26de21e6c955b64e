import EarleyChart.Json.Record

/-!
Contract: token definitions and their JSON form.

A definition names a kind of token and gives the pattern of its texts. Of two definitions that match
equally long texts the one with the higher priority is chosen. In JSON a definition is a record,
priority and `ignore` being optional.
-/

namespace EarleyChart

/-- How a kind of token is recognized. -/
structure TokenDefinition where
  name : String
  pattern : String
  priority : Int := 0
  /-- Whether the texts are passed over, as blanks and comments are. -/
  ignore : Bool := false
deriving DecidableEq, Repr, Inhabited

namespace TokenDefinition

/-- The definition that a tree writes. -/
def ofTree? (tree : Json.Tree) : Option TokenDefinition :=
  match tree.fields? ["name", "pattern", "priority", "ignore"] with
  | some [some name, some pattern, priority, ignore] => do
      let name ← name.asString?
      let pattern ← pattern.asString?
      let priority ← match priority with
        | some priority => priority.asInt32?
        | none => some 0
      let ignore ← match ignore with
        | some ignore => ignore.asBool?
        | none => some false
      return { name, pattern, priority, ignore }
  | _ => none

/-- The definitions that a text writes. -/
def readAll? (text : String) : Option (List TokenDefinition) :=
  (Json.Tree.read? text).bind (·.asList? ofTree?)

end TokenDefinition

end EarleyChart
