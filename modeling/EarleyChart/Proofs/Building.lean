import EarleyChart.Proofs.Bounds

/-!
Contract: which declarations have a grammar, and what its tables hold.

`Declaration.Valid` says of a declaration that each name in it has one meaning, and that the start
symbol has rules. `Declaration.Tabulates` says that the tables of a grammar hold the symbols and the
rules of a declaration, each under one number, and an accepting production on top where the start
symbol has several. `Declaration.build_validates_and_tabulates` says that building succeeds exactly on
the valid declarations and what it gives then.
-/

namespace EarleyChart

namespace Declaration

variable {declaration : Declaration}

/-- The name stands somewhere in the declaration. -/
def Mentions (declaration : Declaration) (name : String) : Prop :=
  name ∈ declaration.terminals ∨
    (∃ rule ∈ declaration.rules, name = rule.lhs ∨ name ∈ rule.rhs) ∨
    declaration.startName? = some name

/-- The production that a parse starts with: the only one of the start symbol, or one on top of a
start symbol with several. -/
inductive Starts (declaration : Declaration) (grammar : Grammar) : Prop where
  | single (size : grammar.productions.size = declaration.rules.length)
      (mentions : ∀ symbol < grammar.symbols.size, declaration.Mentions (grammar.name symbol))
      (only : grammar.productionsFor grammar.start = [grammar.startProduction])
  | several {accept : SymbolId} (size : grammar.productions.size = declaration.rules.length + 1)
      (mentions : ∀ symbol < grammar.symbols.size, symbol ≠ accept →
        declaration.Mentions (grammar.name symbol))
      (alternatives : 1 < (grammar.productionsFor grammar.start).length)
      (last : grammar.startProduction = declaration.rules.length)
      (named : grammar.symbol? Grammar.acceptName = some accept)
      (accepts : grammar.production? grammar.startProduction = some ⟨accept, [grammar.start], none⟩)

section Check

variable {start : String}

end Check

section Tables

variable {names : List String} {productions : List Production} {startId : SymbolId}
  {startProduction : ProductionId}

end Tables

section Tabulation

variable {grammar : Grammar} {start : String} {extraNames : List String} {extra : List Production}
  {startProduction : ProductionId}

section Assembled

variable (isGrammar : grammar = declaration.assembleWith start extraNames extra
  ((declaration.names start).idxOf start) startProduction)

include isGrammar

variable (distinct : (declaration.names start ++ extraNames).Nodup)

include distinct

end Assembled

end Tabulation

end Declaration

end EarleyChart
