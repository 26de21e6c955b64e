import EarleyChart.Diagnosis.Chain

/-!
Contract: why a parse could not go on.

A diagnosis lists the terminals that the last column waits for, those found last first, and traces
each of them back to the start of the parse. Every step of a trace is a production with its dot
and the part of the source that it has matched.
-/

namespace EarleyChart

/-- A partly matched production in a trace. -/
structure TraceStep where
  /-- The production with its dot. -/
  rule : String
  column : Nat
  origin : Nat
  /-- The source that is matched, or the place where matching would start. -/
  span : Span
  /-- The texts of the matched tokens with blanks between them. -/
  matched : String
deriving DecidableEq, Repr, Inhabited

/-- The productions that led to one expectation, innermost first. -/
structure Trace where
  expected : String
  steps : List TraceStep
deriving DecidableEq, Repr, Inhabited

/-- Why a parse could not go on. -/
structure Diagnosis where
  /-- The token that could not be consumed, or the sentinel at the end. -/
  token : Token
  /-- The last column that was reached. -/
  column : Nat
  /-- Names of the terminals that could follow, each once. -/
  expected : List String
  traces : List Trace
  /-- How many expectations are not traced. -/
  omitted : Nat
deriving DecidableEq, Repr, Inhabited

namespace Diagnosis

/-- The token that led into a column. -/
def columnToken (chart : Chart) (column : Nat) : Except ChartFault Token :=
  match chart.token? column with
  | some token => .ok token
  | none => .error (.missingToken column)

/-- The tokens that led into the columns after `origin` up to `column`. -/
def tokensBetween (chart : Chart) (origin column : Nat) : Except ChartFault (List Token) :=
  (List.range' (origin + 1) (column - origin)).mapM (columnToken chart)

/-- The step of an item that has matched nothing: it points at the token that comes next. -/
def openStep (grammar : Grammar) (chart : Chart) (place : ItemRef) (item : Item)
    (failing : Token) : Except ChartFault TraceStep := do
  let next ← if place.column + 1 < chart.size then columnToken chart (place.column + 1)
    else pure failing
  return { rule := grammar.dotted item.production item.dot, column := place.column,
           origin := item.origin, span := Span.point next.start, matched := "" }

/-- The step of an item that has matched the tokens from its origin to its column. -/
def matchedStep (grammar : Grammar) (chart : Chart) (place : ItemRef) (item : Item) :
    Except ChartFault TraceStep := do
  let first ← columnToken chart (item.origin + 1)
  let last ← columnToken chart place.column
  let tokens ← tokensBetween chart item.origin place.column
  return { rule := grammar.dotted item.production item.dot, column := place.column,
           origin := item.origin, span := first.span.merge last.span,
           matched := String.intercalate " " (tokens.map Token.text) }

/-- The step of the item at a place; `failing` is the token that could not be consumed. -/
def traceStep (grammar : Grammar) (chart : Chart) (failing : Token) (place : ItemRef) :
    Except ChartFault TraceStep :=
  match chart.item? place with
  | none => .error (.missingItem place)
  | some item =>
      if item.origin = place.column then openStep grammar chart place item failing
      else matchedStep grammar chart place item

/-- The trace of an item that expects a terminal. -/
def trace (grammar : Grammar) (chart : Chart) (failing : Token) (place : ItemRef)
    (expected : String) : Except ChartFault Trace := do
  let chain ← chart.derivationChain place
  let steps ← chain.mapM (traceStep grammar chart failing)
  return { expected, steps }

/-- The terminal that an item expects, by name. -/
def expectation? (grammar : Grammar) (item : Item) : Option String :=
  ((item.next? grammar).filter grammar.isTerminal).map grammar.name

/-- The places of a column that expect a terminal, with its name, last place first. -/
def candidates (grammar : Grammar) (column : Column) : List (Nat × String) :=
  (column.items.toList.zipIdx.filterMap fun entry =>
    (expectation? grammar entry.1).map (entry.2, ·)).reverse

/-- Diagnoses that `token` could not be consumed in a column. At most `limit` expectations are
traced, and all of them if it is zero. -/
def build (grammar : Grammar) (chart : Chart) (column : Nat) (token : Token) (limit : Nat) :
    Except ChartFault Diagnosis :=
  match chart.column? column with
  | none => .error (.missingColumn column)
  | some reached => do
      let candidates := candidates grammar reached
      let traced := if limit = 0 then candidates else candidates.take limit
      let traces ← traced.mapM fun candidate =>
        trace grammar chart token ⟨column, candidate.1⟩ candidate.2
      return { token, column, expected := (candidates.map Prod.snd).eraseDups, traces,
               omitted := candidates.length - traced.length }

end Diagnosis

end EarleyChart
