/-!
Contract: the reasons why a grammar or a list of token definitions is refused, with their wording.
-/

namespace EarleyChart

/-- Why a grammar or a list of token definitions is refused. -/
inductive GrammarFault where
  | noProductions
  | terminalOnLeft (name : String)
  | reservedName (name : String)
  | terminalStart (name : String)
  | undefinedSymbol (name usedBy : String)
  | undefinedStart (name : String)
  | malformedDescription
  | noDefinitions
  | invalidPattern (token reason : String)
  /-- Each pattern is valid, but not all of them together. -/
  | invalidPatterns (reason : String)
  | malformedDefinitions
  | other (reason : String)
deriving DecidableEq, Repr

def GrammarFault.message : GrammarFault → String
  | noProductions => "grammar has no productions"
  | terminalOnLeft name => s!"terminal `{name}` used as a left-hand side"
  | reservedName name => s!"symbol name `{name}` is reserved"
  | terminalStart name => s!"start symbol `{name}` is a terminal"
  | undefinedSymbol name usedBy => s!"nonterminal `{name}` has no productions (used by `{usedBy}`)"
  | undefinedStart name => s!"start symbol `{name}` has no productions"
  | malformedDescription => "malformed grammar JSON: the text does not describe a grammar"
  | noDefinitions => "lexer has no token definitions"
  | invalidPattern token reason => s!"invalid regex for token `{token}`: {reason}"
  | invalidPatterns reason => s!"invalid token patterns: {reason}"
  | malformedDefinitions =>
      "malformed token definitions: the text is not a list of token definitions"
  | other reason => reason

end EarleyChart
