import EarleyChart.Grammar.Fault
import EarleyChart.Grammar.Nullable

/-!
Contract: grammars from rules over names.

A declaration gives terminals, rules and, optionally, a start symbol, which otherwise is the left-hand
side of the first rule. `Declaration.build` numbers the names in the order of their first use,
refuses declarations that leave a symbol without meaning, and puts `$accept → start` in front of a start
symbol with several productions, so that every grammar has one production to start with.
-/

namespace EarleyChart

/-- A production over names. -/
structure Rule where
  lhs : String
  rhs : List String
  reducer : Option Reducer
deriving Inhabited

/-- What a grammar is built from. -/
structure Declaration where
  terminals : List String := []
  start : Option String := none
  rules : List Rule := []
deriving Inhabited

namespace Declaration

/-- Declares further terminals. -/
def addTerminals (declaration : Declaration) (names : List String) : Declaration :=
  { declaration with terminals := declaration.terminals ++ names }

/-- Sets the start symbol. -/
def setStart (declaration : Declaration) (name : String) : Declaration :=
  { declaration with start := some name }

/-- Adds a rule after the others. -/
def addRule (declaration : Declaration) (lhs : String) (rhs : List String)
    (reducer : Option Reducer) : Declaration :=
  { declaration with rules := declaration.rules ++ [{ lhs, rhs, reducer }] }

/-- The start symbol: the one that is set, else the left-hand side of the first rule. -/
def startName? (declaration : Declaration) : Option String :=
  declaration.start <|> declaration.rules.head?.map Rule.lhs

def isTerminal (declaration : Declaration) (name : String) : Bool :=
  declaration.terminals.contains name

/-- Whether some rule has the name on its left. -/
def isDefined (declaration : Declaration) (name : String) : Bool :=
  declaration.rules.any (·.lhs = name)

/-- The names of a declaration with the given start symbol, in the order of their first use. -/
def names (declaration : Declaration) (start : String) : List String :=
  (declaration.terminals ++ declaration.rules.flatMap (fun rule => rule.lhs :: rule.rhs)
    ++ [start]).eraseDups

/-- The first symbol of a rule that is neither a terminal nor defined. -/
def undefinedIn? (declaration : Declaration) (rule : Rule) : Option GrammarFault :=
  (rule.rhs.find? fun name => !declaration.isTerminal name && !declaration.isDefined name).map
    fun name => .undefinedSymbol name rule.lhs

/-- Checks a declaration with the given start symbol. -/
def check (declaration : Declaration) (start : String) : Except GrammarFault Unit := do
  if let some rule := declaration.rules.find? fun rule => declaration.isTerminal rule.lhs then
    throw (.terminalOnLeft rule.lhs)
  if (declaration.names start).contains Grammar.acceptName then
    throw (.reservedName Grammar.acceptName)
  if declaration.isTerminal start then
    throw (.terminalStart start)
  if let some fault := declaration.rules.findSome? declaration.undefinedIn? then
    throw fault
  if !declaration.isDefined start then
    throw (.undefinedStart start)

/-- The production of a rule, its names numbered by their place in `names`. -/
def production (names : List String) (rule : Rule) : Production where
  lhs := names.idxOf rule.lhs
  rhs := rule.rhs.map names.idxOf
  reducer := rule.reducer

/-- The places of the productions with the given left-hand side. -/
def productionsWith (productions : List Production) (symbol : SymbolId) : List ProductionId :=
  (productions.zipIdx.filter fun entry => entry.1.lhs = symbol).map Prod.snd

/-- The grammar of numbered productions. -/
def assemble (declaration : Declaration) (names : List String) (productions : List Production)
    (start : SymbolId) (startProduction : ProductionId) : Grammar :=
  let nullable := Nullable.symbols productions
  { symbols := (names.mapIdx fun symbol name =>
      { name, terminal := declaration.isTerminal name, nullable := nullable.contains symbol,
        productions := productionsWith productions symbol : GrammarSymbol }).toArray
    productions := productions.toArray
    start, startProduction }

/-- The grammar of a checked declaration. -/
def grammar (declaration : Declaration) (startName : String) : Grammar :=
  let names := declaration.names startName
  let productions := declaration.rules.map (production names)
  let start := names.idxOf startName
  match productionsWith productions start with
  | [only] => declaration.assemble names productions start only
  | _ =>
      let accept : Production := { lhs := names.length, rhs := [start], reducer := none }
      declaration.assemble (names ++ [Grammar.acceptName]) (productions ++ [accept]) start
        productions.length

/-- Checks a declaration and builds its grammar. -/
def build (declaration : Declaration) : Except GrammarFault Grammar := do
  match declaration.startName? with
  | none => throw .noProductions
  | some start =>
      declaration.check start
      return declaration.grammar start

end Declaration

end EarleyChart
