import EarleyChart.Error

/-!
Contract: the steps of a chart parse.

A column is closed when every item in it has predicted the productions of the symbol after its dot
and every complete item has moved the dots of the items that wait for it. A token is consumed by
moving the dots of the items that expect it into the next column. Of two derivations of one item
the first stays, and moves of a dot to an item that is there already are counted.
-/

namespace EarleyChart

/-- Limits of a parse. -/
structure Limits where
  /-- Largest number of tokens, or zero for any number. -/
  maxTokens : Nat := 1000000
  /-- Largest number of items in a column, or zero for any number. -/
  maxItems : Nat := 0
  /-- Largest number of traces in a diagnosis, or zero for any number. -/
  maxTraces : Nat := 8
deriving DecidableEq, Repr, Inhabited

/-- The chart of a running parse, with the number of derivations that were dropped. -/
structure ParseState where
  chart : Chart
  ambiguities : Nat
deriving Inhabited

/-- A step of a parse. Its state outlives an error. -/
abbrev Engine := EStateM ParseError ParseState

namespace Engine

/-- Stops the parse at a contradiction in the chart. -/
def fail {α : Type} (fault : ChartFault) : Engine α :=
  throw (.internal fault)

def getChart : Engine Chart :=
  ParseState.chart <$> get

/-- The production with a number. -/
def getProduction (grammar : Grammar) (id : ProductionId) : Engine Production :=
  match grammar.production? id with
  | some production => pure production
  | none => fail (.unknownProduction id)

/-- The values of an item that has just come to the given dot. -/
def payloadAt (production : Production) (dot : Nat) (children : List Value) : Payload :=
  if dot = production.rhs.length then .reduced (production.reduce children) else .matched children

/-- Inserts an item into the chart and hands on what became of it. -/
def place (column : Nat) (item : Item) (token : Option Token) : Engine Insertion :=
  fun state =>
    match state with
    | ⟨chart, ambiguities⟩ =>
        match chart.insert column item token with
        | (chart, .ok insertion) => .ok insertion ⟨chart, ambiguities⟩
        | (chart, .error fault) => .error (.internal fault) ⟨chart, ambiguities⟩

/-- Inserts an item, and stops the parse if that makes its column too large. -/
def insert (limits : Limits) (column : Nat) (item : Item) (token : Option Token) :
    Engine Unit := do
  match ← place column item token with
  | .duplicate _ => pure ()
  | .added place =>
      if limits.maxItems ≠ 0 ∧ limits.maxItems ≤ place.index then
        throw (.columnTooLarge column (place.index + 1) limits.maxItems)

/-- Counts a derivation that is dropped. -/
def countAmbiguity : Engine Unit :=
  modify fun state => { state with ambiguities := state.ambiguities + 1 }

/-- Moves the dot of the item at `source` over `value` and inserts the result into a column. -/
def advance (grammar : Grammar) (limits : Limits) (column : Nat) (source : ItemRef)
    (value : Value) (provenance : Provenance) (token : Option Token) : Engine Unit := do
  match (← getChart).item? source with
  | none => fail (.missingAdvance source)
  | some item =>
      let key : ItemKey := { item.key with dot := item.key.dot + 1 }
      if ((← getChart).find? column key).isSome then countAmbiguity
      else
        let production ← getProduction grammar item.production
        let payload := payloadAt production (item.dot + 1) (item.children ++ [value])
        insert limits column { item with dot := item.dot + 1, payload, provenance } token

/-- Inserts a production with its dot at the start, unless the column holds it. -/
def predictProduction (grammar : Grammar) (limits : Limits) (predictor : ItemRef)
    (id : ProductionId) : Engine Unit := do
  let column := predictor.column
  let key : ItemKey := ⟨id, 0, UInt32.ofNat column⟩
  if ((← getChart).find? column key).isNone then
    let production ← getProduction grammar id
    insert limits column
      { production := id, dot := 0, origin := column, payload := payloadAt production 0 [],
        provenance := .predicted predictor } none

/-- Whether an item derives `symbol` from nothing in the column with the given number. -/
def isEmptyDerivation (grammar : Grammar) (symbol : SymbolId) (column : Nat) (item : Item) :
    Bool :=
  item.isComplete && item.origin == column
    && ((grammar.production? item.production).map Production.lhs == some symbol)

/-- The empty derivations of `symbol` before a place of a column, with their values. -/
def emptyDerivations (grammar : Grammar) (chart : Chart) (symbol : SymbolId) (before : ItemRef) :
    List (ItemRef × Value) :=
  match chart.column? before.column with
  | none => []
  | some column =>
      (column.indicesBelow before.index (isEmptyDerivation grammar symbol before.column)).filterMap
        fun index =>
          ((column.items[index]?).bind Item.value?).map (⟨before.column, index⟩, ·)

/-- Predicts the productions of the symbol after an item's dot. Empty derivations of the symbol that
were complete before the item came find it too late, so the item moves over them here. -/
def predict (grammar : Grammar) (limits : Limits) (predictor : ItemRef) (symbol : SymbolId) :
    Engine Unit := do
  (grammar.productionsFor symbol).forM (predictProduction grammar limits predictor)
  if grammar.isNullable symbol then
    (emptyDerivations grammar (← getChart) symbol predictor).forM fun (child, value) =>
      advance grammar limits predictor.column predictor value (.completed predictor child) none

/-- The items that wait for `symbol` at the origin of a complete item. In the complete item's own
column only those before it count: later ones find it themselves. -/
def waiting (grammar : Grammar) (symbol : SymbolId) (child : ItemRef) (origin : Nat)
    (column : Column) : List ItemRef :=
  let limit := if origin = child.column then child.index else column.items.size
  (column.indicesBelow limit fun item => item.next? grammar == some symbol).map (ItemRef.mk origin)

/-- Moves the dots of the items that wait for a complete item. -/
def complete (grammar : Grammar) (limits : Limits) (child : ItemRef) (symbol : SymbolId)
    (origin : Nat) (value : Value) : Engine Unit := do
  match (← getChart).column? origin with
  | none => fail (.originOutsideChart child origin)
  | some column =>
      (waiting grammar symbol child origin column).forM fun parent =>
        advance grammar limits child.column parent value (.completed parent child) none

/-- Predicts from an item, or completes with it. -/
def process (grammar : Grammar) (limits : Limits) (place : ItemRef) (item : Item) :
    Engine Unit := do
  match item.next? grammar with
  | some symbol => if !grammar.isTerminal symbol then predict grammar limits place symbol
  | none =>
      let production ← getProduction grammar item.production
      match item.value? with
      | none => fail (.missingValue place)
      | some value => complete grammar limits place production.lhs item.origin value

/-- Processes the items of a column from a place on, those included that are added on the way. At
most `bound` items are processed. -/
def closeFrom (grammar : Grammar) (limits : Limits) (column : Nat) :
    (bound next : Nat) → Engine Unit
  | 0, _ => pure ()
  | bound + 1, next => do
      match (← getChart).item? ⟨column, next⟩ with
      | none => pure ()
      | some item =>
          process grammar limits ⟨column, next⟩ item
          closeFrom grammar limits column bound (next + 1)

/-- Number of keys that the items of a column can have. -/
def itemBudget (grammar : Grammar) (column : Nat) : Nat :=
  (column + 1) * grammar.dotCount

/-- Closes a column under prediction and completion. Its items have distinct keys, so that their
budget bounds the work. -/
def closeColumn (grammar : Grammar) (limits : Limits) (column : Nat) : Engine Unit :=
  closeFrom grammar limits column (itemBudget grammar column + 1) 0

/-- Moves the items of a column that expect a token into the next column, and tells whether there
is a next column now. -/
def scan (grammar : Grammar) (limits : Limits) (column : Nat) (token : Token) : Engine Bool := do
  match grammar.terminal? token.name with
  | none => pure false
  | some terminal =>
      let sources := match (← getChart).column? column with
        | none => []
        | some reached =>
            (reached.indices fun item => item.next? grammar == some terminal).map
              (ItemRef.mk column)
      sources.forM fun source =>
        advance grammar limits (column + 1) source (.token token) (.scanned source) (some token)
      return column + 1 < (← getChart).size

end Engine

end EarleyChart
