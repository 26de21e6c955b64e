import EarleyChart.Action.Basic

/-!
Contract: context-free grammars over numbered symbols.

Symbols and productions are known by their place in the grammar. Each symbol has a name, tells
whether it is a terminal and whether it derives the empty text, and lists its productions in order.
One production is marked as the one a parse starts with.
-/

namespace EarleyChart

/-- Place of a symbol in its grammar. -/
abbrev SymbolId := Nat

/-- Place of a production in its grammar. -/
abbrev ProductionId := Nat

/-- A production with its reduction. -/
structure Production where
  lhs : SymbolId
  rhs : List SymbolId
  reducer : Option Reducer
deriving Inhabited

/-- Reduces the values of a production's right-hand side. -/
def Production.reduce (production : Production) (children : List Value) : Value :=
  Reducer.reduce production.reducer children

/-- What a grammar knows of a symbol. -/
structure GrammarSymbol where
  name : String
  terminal : Bool
  nullable : Bool
  productions : List ProductionId
deriving DecidableEq, Repr, Inhabited

/-- A context-free grammar. -/
structure Grammar where
  symbols : Array GrammarSymbol
  productions : Array Production
  start : SymbolId
  startProduction : ProductionId
deriving Inhabited

namespace Grammar

/-- Name of the symbol that stands above a start symbol with several productions. -/
def acceptName : String :=
  "$accept"

def production? (grammar : Grammar) (id : ProductionId) : Option Production :=
  grammar.productions[id]?

/-- The symbol at a place of a production's right-hand side. -/
def symbolAt? (grammar : Grammar) (id : ProductionId) (dot : Nat) : Option SymbolId :=
  (grammar.production? id).bind (·.rhs[dot]?)

def name (grammar : Grammar) (symbol : SymbolId) : String :=
  ((grammar.symbols[symbol]?).map GrammarSymbol.name).getD ""

def isTerminal (grammar : Grammar) (symbol : SymbolId) : Bool :=
  ((grammar.symbols[symbol]?).map GrammarSymbol.terminal).getD false

def isNullable (grammar : Grammar) (symbol : SymbolId) : Bool :=
  ((grammar.symbols[symbol]?).map GrammarSymbol.nullable).getD false

/-- The productions of a symbol in order. -/
def productionsFor (grammar : Grammar) (symbol : SymbolId) : List ProductionId :=
  ((grammar.symbols[symbol]?).map GrammarSymbol.productions).getD []

/-- The symbol with a name. -/
def symbol? (grammar : Grammar) (name : String) : Option SymbolId :=
  grammar.symbols.findIdx? (·.name = name)

/-- The terminal with a name. -/
def terminal? (grammar : Grammar) (name : String) : Option SymbolId :=
  (grammar.symbol? name).filter grammar.isTerminal

/-- Number of items that the productions can be in with one origin. -/
def dotCount (grammar : Grammar) : Nat :=
  grammar.productions.foldl (fun count production => count + (production.rhs.length + 1)) 0

/-- Symbols from the place `index` on, each after a blank, with a dot before the place `dot`. -/
def dottedFrom (grammar : Grammar) (dot : Nat) : (index : Nat) → List SymbolId → String
  | index, [] => if index ≤ dot then " •" else ""
  | index, symbol :: rest =>
      (if index = dot then " • " else " ") ++ grammar.name symbol
        ++ dottedFrom grammar dot (index + 1) rest

/-- A production with a dot before the place `dot` of its right-hand side, or at its end. -/
def dotted (grammar : Grammar) (id : ProductionId) (dot : Nat) : String :=
  match grammar.production? id with
  | some production =>
      grammar.name production.lhs ++ " →" ++ grammar.dottedFrom dot 0 production.rhs
  | none => ""

/-- Takes blanks with dots off the end of a text, which is given from its end. -/
def trimDots : List Char → List Char
  | '•' :: ' ' :: rest => trimDots rest
  | chars => chars
termination_by structural chars => chars

/-- A production without a dot. -/
def displayProduction (grammar : Grammar) (id : ProductionId) (production : Production) : String :=
  let dottedAtEnd := grammar.dotted id production.rhs.length
  String.ofList (trimDots dottedAtEnd.toList.reverse).reverse

/-- The productions, one a line. -/
def display (grammar : Grammar) : String :=
  String.join (grammar.productions.toList.mapIdx fun id production =>
    grammar.displayProduction id production ++ "\n")

end Grammar

end EarleyChart
