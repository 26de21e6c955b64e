import EarleyChart.Action.Codec
import EarleyChart.Grammar.Declaration
import EarleyChart.Json.Printer

/-!
Contract: grammars described in JSON.

A description is a record of an optional start symbol, the terminals and the productions; a
production is a record of its left-hand side, its right-hand side and an optional action. Written
back, the start symbol is always present and an absent action is left out.
-/

namespace EarleyChart

/-- A production as JSON describes it. -/
structure ProductionDescription where
  lhs : String
  rhs : List String
  action : Option Action
deriving BEq, Inhabited

/-- A grammar as JSON describes it. -/
structure GrammarDescription where
  start : Option String
  terminals : List String
  productions : List ProductionDescription
deriving BEq, Inhabited

namespace ProductionDescription

/-- The production that a tree inside `room` containers writes. -/
def ofTree? (room : Nat) (tree : Json.Tree) : Option ProductionDescription :=
  match tree.fields? ["lhs", "rhs", "action"] with
  | some [some lhs, rhs, action] => do
      let lhs ← lhs.asString?
      let rhs ← match rhs with
        | some rhs => rhs.asList? Json.Tree.asString?
        | none => some []
      let action ← match action with
        | some action => action.orNull? (Action.ofTree? (room - 1))
        | none => some none
      return { lhs, rhs, action }
  | _ => none

def toJson (production : ProductionDescription) : Json :=
  let action := match production.action with
    | some action => [("action", action.toJson)]
    | none => []
  .object ([("lhs", .string production.lhs), ("rhs", .array (production.rhs.map .string))] ++ action)

def toRule (production : ProductionDescription) : Rule where
  lhs := production.lhs
  rhs := production.rhs
  reducer := production.action.map .builtin

end ProductionDescription

namespace GrammarDescription

/-- The description that a tree writes. -/
def ofTree? (tree : Json.Tree) : Option GrammarDescription :=
  match tree.fields? ["start", "terminals", "productions"] with
  | some [start, some terminals, some productions] => do
      let start ← match start with
        | some start => start.orNull? Json.Tree.asString?
        | none => some none
      let terminals ← terminals.asList? Json.Tree.asString?
      let productions ← productions.asList?
        (ProductionDescription.ofTree? (Json.maxNesting - 2))
      return { start, terminals, productions }
  | _ => none

/-- The description that a text writes. -/
def read? (text : String) : Option GrammarDescription :=
  (Json.Tree.read? text).bind ofTree?

def toJson (description : GrammarDescription) : Json :=
  .object [("start", (description.start.map .string).getD .null),
    ("terminals", .array (description.terminals.map .string)),
    ("productions", .array (description.productions.map ProductionDescription.toJson))]

/-- The text of a description. -/
def write (description : GrammarDescription) : String :=
  description.toJson.compact

def toDeclaration (description : GrammarDescription) : Declaration where
  terminals := description.terminals
  start := description.start
  rules := description.productions.map ProductionDescription.toRule

/-- The grammar of a description. -/
def build (description : GrammarDescription) : Except GrammarFault Grammar :=
  description.toDeclaration.build

end GrammarDescription

/-- The grammar that a text describes. -/
def Grammar.read (text : String) : Except GrammarFault Grammar :=
  match GrammarDescription.read? text with
  | some description => description.build
  | none => .error .malformedDescription

end EarleyChart
