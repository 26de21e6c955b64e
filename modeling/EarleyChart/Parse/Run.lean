import EarleyChart.Parse.Engine

/-!
Contract: parses of token lists.

A parse starts with the grammar's start production in column zero and consumes the tokens from left
to right. It ends at the first token that cannot be consumed, at a limit, or after the last token,
where it succeeds if the start production is complete.
-/

namespace EarleyChart

/-- Counters of a parse. -/
structure ParseStats where
  columns : Nat
  items : Nat
  ambiguities : Nat
deriving DecidableEq, Repr, Inhabited

/-- What a parse leaves behind. -/
structure ParseRun where
  chart : Chart
  result : Except ParseError Value
  stats : ParseStats

namespace Engine

/-- Diagnoses that a token could not be consumed in the last column. -/
def diagnose (grammar : Grammar) (limits : Limits) (token : Token) : Engine Diagnosis := do
  let chart ← getChart
  match Diagnosis.build grammar chart (chart.size - 1) token limits.maxTraces with
  | .ok diagnosis => pure diagnosis
  | .error fault => fail fault

/-- Consumes a token that has `consumed` tokens before it. -/
def consume (grammar : Grammar) (limits : Limits) (consumed : Nat) (token : Token) :
    Engine Unit := do
  if limits.maxTokens ≠ 0 ∧ limits.maxTokens ≤ consumed then
    throw (.inputTooLarge (consumed + 1) limits.maxTokens)
  let column := (← getChart).size - 1
  if ← scan grammar limits column token then
    closeColumn grammar limits (column + 1)
  else
    throw (.unexpectedToken (← diagnose grammar limits token))

/-- Consumes tokens that have `consumed` tokens before them. -/
def consumeAll (grammar : Grammar) (limits : Limits) : (consumed : Nat) → List Token → Engine Unit
  | _, [] => pure ()
  | consumed, token :: rest => do
      consume grammar limits consumed token
      consumeAll grammar limits (consumed + 1) rest

/-- Key of the complete start production. -/
def acceptKey (grammar : Grammar) : ItemKey where
  production := grammar.startProduction
  dot := UInt32.ofNat
    (((grammar.production? grammar.startProduction).map (·.rhs.length)).getD 0)
  origin := 0

/-- The value of the start production, if it is complete in the last column. -/
def accepted? (grammar : Grammar) (chart : Chart) : Option Value :=
  ((chart.find? (chart.size - 1) (acceptKey grammar)).bind chart.item?).bind Item.value?

/-- Ends a parse after its last token. -/
def finish (grammar : Grammar) (limits : Limits) : Engine Value := do
  let chart ← getChart
  match accepted? grammar chart with
  | some value => pure value
  | none =>
      let last := chart.token? (chart.size - 1)
      throw (.unexpectedEnd (← diagnose grammar limits (Token.endOfInput last)))

/-- Parses tokens from the first column on. -/
def parseAll (grammar : Grammar) (limits : Limits) (tokens : List Token) : Engine Value := do
  closeColumn grammar limits 0
  consumeAll grammar limits 0 tokens
  finish grammar limits

end Engine

/-- The item that a parse starts with. -/
def Grammar.seed (grammar : Grammar) : Item where
  production := grammar.startProduction
  dot := 0
  origin := 0
  payload := match grammar.production? grammar.startProduction with
    | some production => Engine.payloadAt production 0 []
    | none => .matched []
  provenance := .seed

namespace Grammar

/-- Parses tokens and keeps the chart. -/
def run (grammar : Grammar) (limits : Limits) (tokens : List Token) : ParseRun :=
  let state : ParseState := ⟨Chart.seeded grammar.seed, 0⟩
  let (result, state) := match Engine.parseAll grammar limits tokens state with
    | .ok value state => (Except.ok value, state)
    | .error error state => (Except.error error, state)
  { chart := state.chart, result,
    stats := ⟨state.chart.size, state.chart.itemCount, state.ambiguities⟩ }

/-- The value of a parse of tokens. -/
def parse (grammar : Grammar) (limits : Limits) (tokens : List Token) : Except ParseError Value :=
  (grammar.run limits tokens).result

end Grammar

end EarleyChart
