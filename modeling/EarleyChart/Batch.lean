import EarleyChart.Lexer.Basic

/-!
Contract: many inputs parsed with one grammar.

Every input has a chart of its own, and the results are in the order of the inputs.
-/

namespace EarleyChart.Grammar

/-- Cuts each input into tokens and parses them. -/
def parseBatch (grammar : Grammar) (limits : Limits) (lexer : Lexer) (inputs : List String) :
    List (Except ParseError Value) :=
  inputs.map (grammar.parseSource limits lexer)

/-- Parses each list of tokens. -/
def parseTokenBatch (grammar : Grammar) (limits : Limits) (inputs : List (List Token)) :
    List (Except ParseError Value) :=
  inputs.map (grammar.parse limits)

end EarleyChart.Grammar
