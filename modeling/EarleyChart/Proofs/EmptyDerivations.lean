import Mathlib.Computability.ContextFreeGrammar
import Mathlib.Order.Bounds.Defs
import EarleyChart.Proofs.Bounds

/-!
Contract: the symbols that are marked as nullable are those that derive the empty text.

`Grammar.contextFree` is the context-free grammar of the numbered productions. What derives nothing
lies in every set that is closed under the productions, for each step of a derivation only replaces a
left-hand side by symbols of its right-hand side. The marked symbols are the least such set, in
whatever order the productions are passed over.
-/

namespace EarleyChart

namespace Grammar

/-- A symbol as a terminal or as a nonterminal. -/
def symbolOf (grammar : Grammar) (symbol : SymbolId) : Symbol SymbolId SymbolId :=
  if grammar.isTerminal symbol then .terminal symbol else .nonterminal symbol

/-- The context-free grammar of the productions. -/
abbrev contextFree (grammar : Grammar) : ContextFreeGrammar SymbolId where
  NT := SymbolId
  initial := grammar.start
  rules := (grammar.productions.toList.map fun production =>
    (⟨production.lhs, production.rhs.map grammar.symbolOf⟩ :
      ContextFreeRule SymbolId SymbolId)).toFinset

/-- A symbol derives the empty text. -/
def DerivesNothing (grammar : Grammar) (symbol : SymbolId) : Prop :=
  grammar.contextFree.Derives [grammar.symbolOf symbol] []

variable {grammar : Grammar}

theorem eq_of_symbolOf {symbol other : SymbolId}
    (same : grammar.symbolOf symbol = .nonterminal other) : symbol = other := by
  unfold symbolOf at same
  split at same
  · cases same
  · exact Symbol.nonterminal.inj same

theorem exists_production? {production : Production}
    (member : production ∈ grammar.productions.toList) :
    ∃ id, grammar.production? id = some production := by
  obtain ⟨id, found⟩ := List.mem_iff_getElem?.mp member
  exact ⟨id, by simpa [production?] using found⟩

/-- A form derives nothing if each of its symbols does. -/
theorem derives_nil {form : List SymbolId} (each : ∀ symbol ∈ form, grammar.DerivesNothing symbol) :
    grammar.contextFree.Derives (form.map grammar.symbolOf) [] := by
  induction form with
  | nil => rfl
  | cons symbol rest inductionHypothesis =>
      have first := each symbol List.mem_cons_self
      have others := inductionHypothesis fun other member =>
        each other (List.mem_cons_of_mem symbol member)
      exact (first.append_right _).trans others

theorem closedSet_derivesNothing (consistent : grammar.Consistent) :
    Nullable.ClosedSet grammar.productions.toList {symbol | grammar.DerivesNothing symbol} := by
  intro production member each
  have rewrites : grammar.contextFree.Produces [.nonterminal production.lhs]
      (production.rhs.map grammar.symbolOf) := by
    refine ⟨⟨production.lhs, production.rhs.map grammar.symbolOf⟩, ?_, ?_⟩
    · exact List.mem_toFinset.mpr (List.mem_map_of_mem member)
    · simpa using ContextFreeRule.rewrites_of_exists_parts _ [] []
  obtain ⟨id, found⟩ := exists_production? member
  have nonterminal : grammar.symbolOf production.lhs = .nonterminal production.lhs := by
    simp [symbolOf, consistent.nonterminal found]
  change grammar.contextFree.Derives [grammar.symbolOf production.lhs] []
  rw [nonterminal]
  exact rewrites.single.trans (derives_nil each)

/-- The symbols of a form that derives nothing lie in every closed set. -/
theorem mem_of_derives_nil {known : Set SymbolId}
    (closed : Nullable.ClosedSet grammar.productions.toList known)
    {form : List (Symbol SymbolId SymbolId)} (derives : grammar.contextFree.Derives form []) :
    ∀ symbol, grammar.symbolOf symbol ∈ form → symbol ∈ known := by
  induction derives using Relation.ReflTransGen.head_induction_on with
  | refl => simp
  | head step _ inductionHypothesis =>
      obtain ⟨rule, member, rewrites⟩ := step
      obtain ⟨left, right, rfl, rfl⟩ := rewrites.exists_parts
      obtain ⟨production, productionMember, rfl⟩ := List.mem_map.mp (List.mem_toFinset.mp member)
      intro symbol used
      simp only [List.mem_append, List.mem_singleton] at used inductionHypothesis
      rcases used with (inLeft | isInput) | inRight
      · exact inductionHypothesis symbol (.inl (.inl inLeft))
      · obtain rfl := eq_of_symbolOf isInput
        refine closed production productionMember fun inner innerUsed => ?_
        exact inductionHypothesis inner (.inl (.inr (List.mem_map_of_mem innerUsed)))
      · exact inductionHypothesis symbol (.inr inRight)

end Grammar

namespace Nullable

theorem ClosedSet.perm {productions order : List Production} {known : Set SymbolId}
    (closed : ClosedSet productions known) (permutes : order.Perm productions) :
    ClosedSet order known :=
  fun production member => closed production (permutes.mem_iff.mp member)

/-- The symbols that passes over the productions, in any order, leave known form the least closed
set. -/
theorem isLeast_of_settles {productions order : List Production} {settled : List SymbolId}
    (permutes : order.Perm productions) (settles : Settles order [] settled) :
    IsLeast {known | ClosedSet productions known} {symbol | symbol ∈ settled} := by
  have settledClosed : ClosedSet order {symbol | symbol ∈ settled} := settles.closed
  refine ⟨settledClosed.perm permutes.symm, fun within closed => ?_⟩
  exact settles.mem_of_mem (closed.perm permutes) (by simp)

end Nullable

namespace Declaration

variable {declaration : Declaration} {grammar : Grammar}

theorem isNullable_assemble {names : List String} {productions : List Production}
    {startId : SymbolId} {startProduction : ProductionId}
    (inRange :
      (declaration.assemble names productions startId startProduction).InRange) {symbol : SymbolId} :
    (declaration.assemble names productions startId startProduction).isNullable symbol = true ↔
      symbol ∈ Nullable.symbols productions := by
  rw [Grammar.isNullable, symbols_assemble]
  cases found : names[symbol]? with
  | some name => simp
  | none =>
      refine iff_of_false (by simp) fun known => ?_
      -- A known symbol is the left-hand side of a production, and those are in range.
      have defined : Nullable.ClosedSet productions {symbol | symbol < names.length} := by
        intro production member _
        obtain ⟨id, productionAt⟩ := List.mem_iff_getElem?.mp member
        have inside := inRange.left ((production?_assemble id).trans productionAt)
        simpa [assemble] using inside
      have inside := (Nullable.settles_symbols productions).mem_of_mem defined (by simp) symbol known
      exact absurd inside (Nat.not_lt.mpr (List.getElem?_eq_none_iff.mp found))

theorem isNullable_of_build (built : declaration.build = .ok grammar) {symbol : SymbolId} :
    grammar.isNullable symbol = true ↔ symbol ∈ Nullable.symbols grammar.productions.toList := by
  have inRange := inRange_of_build built
  obtain ⟨start, _, _, rfl⟩ := build_eq_ok built
  unfold Declaration.grammar at inRange ⊢
  dsimp only at inRange ⊢
  split at inRange
  · exact isNullable_assemble inRange
  · exact isNullable_assemble inRange

theorem isLeast_isNullable (built : declaration.build = .ok grammar) :
    IsLeast {known | Nullable.ClosedSet grammar.productions.toList known}
      {symbol | grammar.isNullable symbol = true} := by
  simp only [isNullable_of_build built]
  exact Nullable.isLeast_of_settles (.refl _) (Nullable.settles_symbols _)

theorem isNullable_eq_false_of_isTerminal (built : declaration.build = .ok grammar)
    {symbol : SymbolId} (terminal : grammar.isTerminal symbol = true) :
    grammar.isNullable symbol = false := by
  obtain ⟨_, numbers⟩ := numbers_of_build built
  have nonterminals : Nullable.ClosedSet grammar.productions.toList
      {symbol | grammar.isTerminal symbol = false} := by
    intro production member _
    obtain ⟨id, found⟩ := Grammar.exists_production? member
    exact numbers.consistent.nonterminal found
  refine Bool.eq_false_iff.mpr fun nullable => ?_
  have nonterminal : grammar.isTerminal symbol = false :=
    (isLeast_isNullable built).2 nonterminals nullable
  rw [terminal] at nonterminal
  contradiction

/-- The marked symbols are those that derive the empty text, and the least set that is closed under
the productions. The passes that find them come to an end, and find the same symbols in every order
of the productions. -/
theorem isNullable_iff_derivesNothing (built : declaration.build = .ok grammar) :
    (∀ symbol, grammar.isNullable symbol = true ↔ grammar.DerivesNothing symbol) ∧
      (∀ symbol, grammar.isTerminal symbol = true → grammar.isNullable symbol = false) ∧
      IsLeast {known | Nullable.ClosedSet grammar.productions.toList known}
        {symbol | grammar.isNullable symbol = true} ∧
      ∀ order, order.Perm grammar.productions.toList →
        ∃ settled, Nullable.Settles order [] settled ∧
          ∀ symbol, grammar.isNullable symbol = true ↔ symbol ∈ settled := by
  have least := isLeast_isNullable built
  refine ⟨?_, fun _ => isNullable_eq_false_of_isTerminal built, least, ?_⟩
  · intro symbol
    obtain ⟨_, numbers⟩ := numbers_of_build built
    constructor
    · intro nullable
      exact least.2 (Grammar.closedSet_derivesNothing numbers.consistent) nullable
    · intro derives
      exact Grammar.mem_of_derives_nil least.1 derives symbol List.mem_cons_self
  · intro order permutes
    have settles := Nullable.settles_symbols order
    have same := least.unique (Nullable.isLeast_of_settles permutes settles)
    exact ⟨_, settles, Set.ext_iff.mp same⟩

/-- Rules that each pass reads before those that they rest on. -/
def layers : Declaration where
  terminals := ["mark"]
  rules := [⟨"outer", ["middle", "middle"], none⟩, ⟨"middle", ["solid"], none⟩,
    ⟨"middle", ["inner"], none⟩, ⟨"solid", ["outer", "mark"], none⟩, ⟨"inner", [], none⟩]

theorem layers_derives_nothing :
    (layers.grammar "outer").DerivesNothing 1 ∧ ¬ (layers.grammar "outer").DerivesNothing 3 := by
  have built : layers.build = .ok (layers.grammar "outer") := rfl
  have marked := (isNullable_iff_derivesNothing built).1
  exact ⟨(marked 1).mp rfl, fun derives => Bool.false_ne_true ((marked 3).mpr derives)⟩

end Declaration

end EarleyChart
