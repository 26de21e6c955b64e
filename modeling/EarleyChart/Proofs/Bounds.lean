import EarleyChart.Proofs.Correctness

/-!
Contract: no lookup of a parse fails.

A parse looks up productions and symbols by number and columns and items by place. Where such a
lookup could fail the parse would stop with a contradiction in the chart, or go on with a default
as if nothing had happened. `Grammar.InRange` says that the numbers in a grammar are those of its
own symbols and productions, `Chart.InRange` that the numbers and places in a chart are those of
the grammar and of the chart itself. Charts only grow, so what holds of the last chart of a parse
holds of all that it has been through.
-/

namespace EarleyChart

/-- The numbers that a grammar holds are below the sizes of its tables. -/
structure Grammar.InRange (grammar : Grammar) : Prop where
  start : grammar.start < grammar.symbols.size
  startProduction : grammar.startProduction < grammar.productions.size
  left : ∀ {id production}, grammar.production? id = some production →
    production.lhs < grammar.symbols.size
  right : ∀ {id production}, grammar.production? id = some production →
    ∀ symbol ∈ production.rhs, symbol < grammar.symbols.size
  listed : ∀ {symbol id}, id ∈ grammar.productionsFor symbol → id < grammar.productions.size
  terminals : ∀ {name symbol}, grammar.terminal? name = some symbol → symbol < grammar.symbols.size

/-- The places that a provenance names. -/
def Provenance.links : Provenance → List ItemRef
  | seed => []
  | predicted predictor => [predictor]
  | scanned source => [source]
  | completed parent child => [parent, child]

/-- The numbers and places that a chart holds lead to productions, symbols, columns and items, and
whatever is asked about an item has an answer. -/
structure Chart.InRange (grammar : Grammar) (chart : Chart) : Prop where
  started : 0 < chart.size
  production : ∀ {place item}, chart.item? place = some item →
    item.production < grammar.productions.size
  symbol : ∀ {place item symbol}, chart.item? place = some item →
    item.next? grammar = some symbol → symbol < grammar.symbols.size
  origin : ∀ {place item}, chart.item? place = some item →
    item.origin ≤ place.column ∧ place.column < chart.size
  value : ∀ {place item}, chart.item? place = some item → item.next? grammar = none →
    item.value?.isSome = true
  linked : ∀ {place item}, chart.item? place = some item →
    ∀ link ∈ item.provenance.links, (chart.item? link).isSome = true
  chained : ∀ {place item}, chart.item? place = some item →
    (chart.derivationChain place).isOk = true
  traced : ∀ {place item}, chart.item? place = some item → ∀ failing,
    (Diagnosis.traceStep grammar chart failing place).isOk = true
  diagnosed : ∀ {column}, column < chart.size → ∀ token limit,
    (Diagnosis.build grammar chart column token limit).isOk = true

variable {grammar : Grammar} {tokens : List Token} {chart : Chart}

theorem Grammar.lt_size_of_production? {id : ProductionId} {production : Production}
    (found : grammar.production? id = some production) : id < grammar.productions.size :=
  (Array.getElem?_eq_some_iff.mp found).1

/-- Symbols without an entry have no productions. -/
theorem Grammar.lt_size_of_mem_productionsFor {symbol : SymbolId} {id : ProductionId}
    (member : id ∈ grammar.productionsFor symbol) : symbol < grammar.symbols.size := by
  by_contra outside
  have absent : grammar.symbols[symbol]? = none := Array.getElem?_eq_none (Nat.le_of_not_lt outside)
  simp [Grammar.productionsFor, absent] at member

theorem Grammar.lt_size_of_terminal? {name : String} {symbol : SymbolId}
    (found : grammar.terminal? name = some symbol) : symbol < grammar.symbols.size := by
  have first : grammar.symbols.findIdx? (·.name = name) = some symbol :=
    (Option.filter_eq_some_iff.mp found).1
  obtain ⟨inside, _⟩ := Array.findIdx?_eq_some_iff_getElem.mp first
  exact inside

namespace Declaration

variable {declaration : Declaration}

section Numbered

variable {start : String} {extraNames : List String} {extra : List Production}
  {startId : SymbolId} {startProduction : ProductionId}

theorem idxOf_lt_size_assembleWith {name : String} (member : name ∈ declaration.names start) :
    (declaration.names start).idxOf name <
      (declaration.assembleWith start extraNames extra startId startProduction).symbols.size := by
  have inside := List.idxOf_lt_length_iff.mpr member
  simp only [assembleWith, assemble, List.size_toArray, List.length_mapIdx, List.length_append]
  omega

theorem rhs_lt_size_assembleWith
    (right : ∀ production ∈ extra, ∀ symbol ∈ production.rhs,
      ∃ name ∈ declaration.names start, symbol = (declaration.names start).idxOf name)
    {id : ProductionId} {found : Production}
    (present : (declaration.assembleWith start extraNames extra startId startProduction).production?
      id = some found) {symbol : SymbolId} (used : symbol ∈ found.rhs) :
    symbol <
      (declaration.assembleWith start extraNames extra startId startProduction).symbols.size := by
  rcases production?_assembleWith_cases present with ⟨rule, ruleAt, rfl⟩ | ⟨_, isExtra⟩
  · obtain ⟨name, nameUsed, rfl⟩ := List.mem_map.mp used
    exact idxOf_lt_size_assembleWith (rhs_mem_names (List.mem_of_getElem? ruleAt) nameUsed)
  · obtain ⟨name, member, rfl⟩ := right found isExtra symbol used
    exact idxOf_lt_size_assembleWith member

end Numbered

/-- The right-hand sides of a grammar that is built hold its own symbols. -/
theorem rhs_lt_size_of_build (built : declaration.build = .ok grammar) {id : ProductionId}
    {production : Production} (found : grammar.production? id = some production)
    {symbol : SymbolId} (used : symbol ∈ production.rhs) : symbol < grammar.symbols.size := by
  obtain ⟨start, _, _, rfl⟩ := build_eq_ok built
  unfold Declaration.grammar at found ⊢
  dsimp only at found ⊢
  split at found
  next only _ =>
    have unextended : declaration.assemble (declaration.names start)
        (declaration.rules.map (Declaration.production (declaration.names start)))
        ((declaration.names start).idxOf start) only =
      declaration.assembleWith start [] [] ((declaration.names start).idxOf start) only := by
      simp only [assembleWith, List.append_nil]
    rw [unextended] at found ⊢
    exact rhs_lt_size_assembleWith (by simp) found used
  next =>
    have named : ∀ production ∈ [declaration.acceptProduction start],
        ∀ symbol ∈ production.rhs,
          ∃ name ∈ declaration.names start, symbol = (declaration.names start).idxOf name := by
      simpa [acceptProduction] using ⟨start, start_mem_names, rfl⟩
    exact rhs_lt_size_assembleWith named found used

theorem inRange_of_build (built : declaration.build = .ok grammar) : grammar.InRange := by
  obtain ⟨start, numbers⟩ := numbers_of_build built
  have consistent := numbers.consistent
  have left {id production} (found : grammar.production? id = some production) :
      production.lhs < grammar.symbols.size :=
    Grammar.lt_size_of_mem_productionsFor (consistent.listed.mpr ⟨production, found, rfl⟩)
  have right {id production} (found : grammar.production? id = some production) :
      ∀ symbol ∈ production.rhs, symbol < grammar.symbols.size :=
    fun _ used => rhs_lt_size_of_build built found used
  obtain ⟨production, startFound⟩ := consistent.startProduction
  refine ⟨?_, Grammar.lt_size_of_production? startFound, left, right, ?_,
    Grammar.lt_size_of_terminal?⟩
  · rcases numbers.root startFound with ⟨isStart, _⟩ | ⟨isUnit, _⟩
    · rw [← isStart]
      exact left startFound
    · apply right startFound
      rw [isUnit]
      exact List.mem_cons_self
  · intro symbol id member
    obtain ⟨_, found, _⟩ := consistent.listed.mp member
    exact Grammar.lt_size_of_production? found

end Declaration

theorem Coherent.linked {place : ItemRef} {item : Item} (coherent : Coherent grammar tokens chart)
    (present : chart.item? place = some item) :
    ∀ link ∈ item.provenance.links, (chart.item? link).isSome = true := by
  intro link named
  cases coherent.founded present with
  | seed _ => cases named
  | predicted earlier _ _ _ _ =>
      obtain rfl := List.mem_singleton.mp named
      rw [earlier]
      rfl
  | scanned earlier _ _ _ _ _ =>
      obtain rfl := List.mem_singleton.mp named
      rw [earlier]
      rfl
  | completed earlier innerPresent _ _ _ _ _ _ _ _ =>
      rcases List.mem_cons.mp named with rfl | isChild
      · rw [earlier]
        rfl
      · obtain rfl := List.mem_singleton.mp isChild
        rw [innerPresent]
        rfl

theorem Coherent.inRange (inRange : grammar.InRange) (consistent : grammar.Consistent)
    (coherent : Coherent grammar tokens chart) : chart.InRange grammar where
  started := Chart.column_lt_size coherent.seeded
  production := by
    intro place item present
    obtain ⟨_, _, found, _⟩ := coherent.reads consistent present
    exact Grammar.lt_size_of_production? found
  symbol := by
    intro place item symbol _ awaited
    obtain ⟨production, found, symbolAt⟩ := next?_eq_some_iff.mp awaited
    exact inRange.right found symbol (List.mem_of_getElem? symbolAt)
  origin := by
    intro place item present
    have origin := coherent.origin_le consistent present
    exact ⟨origin, Chart.column_lt_size present⟩
  value := by
    intro place item present ended
    obtain ⟨_, value, _, reduced⟩ :=
      Engine.completes_of_next?_eq_none (coherent.reads consistent present) ended
    rw [reduced]
    rfl
  linked := coherent.linked
  chained := by
    intro place item present
    obtain ⟨chain, chained, _⟩ := coherent.exists_derivationChain present
    rw [chained]
    rfl
  traced := by
    intro place item present failing
    obtain ⟨step, stepped⟩ := coherent.exists_traceStep consistent failing present
    rw [stepped]
    rfl
  diagnosed := by
    intro column inside token limit
    obtain ⟨diagnosis, diagnosed, _⟩ := coherent.exists_diagnosis consistent inside token limit
    rw [diagnosed]
    rfl

namespace Declaration

/-- A parse never meets a contradiction in its chart: all that it looks up is there. -/
theorem run_result_ne_internal {declaration : Declaration} {grammar : Grammar}
    (built : declaration.build = .ok grammar) (limits : Limits) (tokens : List Token) :
    (∀ fault, (grammar.run limits tokens).result ≠ .error (.internal fault)) ∧
      grammar.InRange ∧ (grammar.run limits tokens).chart.InRange grammar := by
  obtain ⟨start, numbers⟩ := numbers_of_build built
  have inRange := inRange_of_build built
  refine ⟨?_, inRange,
    (numbers.consistent.run_coherent limits tokens).inRange inRange numbers.consistent⟩
  intro fault failed
  rcases numbers.consistent.run_cases limits tokens with ⟨value, returned, _⟩ | ⟨error, stopped, stops⟩
  · rw [returned] at failed
    cases failed
  · obtain rfl := Except.error.inj (stopped.symm.trans failed)
    cases stops

/-- A failing parse of an ambiguous grammar with empty productions, all of whose traces are asked
for. -/
theorem brokenSum_result_ne_internal :
    (∀ fault, ((sums.grammar "sum").run { maxTraces := 0 } brokenSum).result ≠
        .error (.internal fault)) ∧
      (sums.grammar "sum").InRange ∧
      ((sums.grammar "sum").run { maxTraces := 0 } brokenSum).chart.InRange (sums.grammar "sum") :=
  run_result_ne_internal build_sums _ _

end Declaration

end EarleyChart
