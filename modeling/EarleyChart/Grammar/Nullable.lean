import EarleyChart.Grammar.Basic

/-!
Contract: the symbols that derive the empty text.

A symbol derives the empty text when one of its productions has only such symbols on its right.
Passes over the productions add symbols until one adds none.
-/

namespace EarleyChart.Nullable

/-- Adds the left-hand side of a production whose right-hand side is known to be nullable. -/
def add (known : List SymbolId) (production : Production) : List SymbolId :=
  if !known.contains production.lhs && production.rhs.all known.contains then
    production.lhs :: known
  else known

/-- One pass over the productions in order. -/
def pass (productions : List Production) (known : List SymbolId) : List SymbolId :=
  productions.foldl add known

/-- Passes until one adds nothing, but at most `rounds` of them. -/
def close (productions : List Production) : (rounds : Nat) → List SymbolId → List SymbolId
  | 0, known => known
  | rounds + 1, known =>
      let next := pass productions known
      if next.length = known.length then known else close productions rounds next

/-- The nullable symbols. A pass that adds nothing ends the search, and one that adds a symbol
uses up a production, so there are no more passes than productions and one. -/
def symbols (productions : List Production) : List SymbolId :=
  close productions (productions.length + 1) []

end EarleyChart.Nullable
