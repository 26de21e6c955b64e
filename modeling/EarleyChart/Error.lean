import EarleyChart.Diagnosis.Render
import EarleyChart.Grammar.Fault

/-!
Contract: what can go wrong from grammar to parse, with the wording of each error.
-/

namespace EarleyChart

/-- Why there is no parse. -/
inductive ParseError where
  /-- No production accepts the token; the terminals could have stood there. -/
  | unexpected (diagnosis : Diagnosis) (token : Token) (expected : List String)
  /-- The tokens end, with the sentinel, before the start symbol is matched. -/
  | ended (diagnosis : Diagnosis) (token : Token) (expected : List String)
  /-- No token definition matches at a character. -/
  | unrecognized (position : Position) (found : Char)
  /-- The grammar or the token definitions are refused. -/
  | invalidGrammar (fault : GrammarFault)
  /-- There are more tokens than the limit. -/
  | inputTooLarge (tokens limit : Nat)
  /-- A column has more items than the limit. -/
  | columnTooLarge (column items limit : Nat)
  /-- The chart contradicts itself. -/
  | internal (fault : ChartFault)
deriving DecidableEq, Repr

namespace ParseError

/-- The error at a token, as a parser makes it: with the token and the terminals of the diagnosis. -/
abbrev unexpectedToken (diagnosis : Diagnosis) : ParseError :=
  .unexpected diagnosis diagnosis.token diagnosis.expected

/-- The error at the end of the tokens, made in the same way. -/
abbrev unexpectedEnd (diagnosis : Diagnosis) : ParseError :=
  .ended diagnosis diagnosis.token diagnosis.expected

/-- The diagnosis of a syntax error. -/
def diagnosis? : ParseError → Option Diagnosis
  | unexpected diagnosis _ _ => some diagnosis
  | ended diagnosis _ _ => some diagnosis
  | _ => none

/-- The terminals that could have followed at a syntax error. -/
def expected : ParseError → List String
  | unexpected _ _ expected => expected
  | ended _ _ expected => expected
  | _ => []

def isSyntaxError (error : ParseError) : Bool :=
  error.diagnosis?.isSome

def message : ParseError → String
  | unexpected _ token _ => s!"unexpected token {token.display} at {token.start.display}"
  | ended _ token _ => s!"unexpected end of input at {token.start.display}"
  | unrecognized position found =>
      s!"unrecognized character {Quoted.character found} at {position.display}"
  | invalidGrammar fault => "invalid grammar: " ++ fault.message
  | inputTooLarge tokens limit => s!"input too large: {tokens} tokens exceeds limit of {limit}"
  | columnTooLarge column items limit =>
      s!"column {column} holds {items} items, exceeding the limit of {limit}"
  | internal fault => "internal error: " ++ fault.message

/-- The message with the place in the source and, for a syntax error, its diagnosis. -/
def render (error : ParseError) (source : String) : String :=
  let head := "error: " ++ error.message ++ "\n"
  match error with
  | unexpected diagnosis _ _ => head ++ diagnosis.render (some source)
  | ended diagnosis _ _ => head ++ diagnosis.render (some source)
  | unrecognized position _ => head ++ "\n" ++ Source.highlight source (Span.point position)
  | _ => head

end ParseError

end EarleyChart
