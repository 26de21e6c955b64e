import EarleyChart.Proofs.Correctness

/-!
Contract: what a chart tells of itself.

The invariant of a parse says how an item is made from earlier ones. Here the same is read off a
finished chart: `Chart.Accounts` is what the provenance of an item states about the items that it
names, and `Chart.Accountable` adds the tokens, the keys and the values. No outcome of a parse is
left out, since every one of them keeps the chart coherent.
-/

namespace EarleyChart

/-- The values of an item fit its dot: the reduced one at the end of the right-hand side, and
before it one for each symbol. -/
def Item.Filled (production : Production) (item : Item) : Prop :=
  match item.payload with
  | .reduced _ => item.dot = production.rhs.length
  | .matched values => item.dot < production.rhs.length ∧ values.length = item.dot

/-- `later` is `earlier` with its dot moved over `symbol`. -/
structure Item.Moves (grammar : Grammar) (symbol : SymbolId) (earlier later : Item) : Prop where
  production : earlier.production = later.production
  origin : earlier.origin = later.origin
  dot : earlier.dot + 1 = later.dot
  awaited : earlier.next? grammar = some symbol

/-- What the provenance of an item at a place says of the chart. -/
inductive Chart.Accounts (grammar : Grammar) (chart : Chart) (place : ItemRef) (item : Item) :
    Provenance → Prop where
  | seed (first : place = ⟨0, 0⟩) : Accounts grammar chart place item .seed
  | predicted {predictor : ItemRef} {waiting : Item} {production : Production}
      (present : chart.item? predictor = some waiting)
      (sameColumn : predictor.column = place.column)
      (earlier : predictor.index < place.index)
      (found : grammar.production? item.production = some production)
      (awaited : waiting.next? grammar = some production.lhs)
      (unmoved : item.dot = 0)
      (opened : item.origin = place.column) :
      Accounts grammar chart place item (.predicted predictor)
  | scanned {source : ItemRef} {former : Item} {token : Token} {symbol : SymbolId}
      (present : chart.item? source = some former)
      (nextColumn : source.column + 1 = place.column)
      (recorded : chart.token? place.column = some token)
      (spelled : grammar.terminal? token.name = some symbol)
      (moves : former.Moves grammar symbol item) :
      Accounts grammar chart place item (.scanned source)
  | completed {parent child : ItemRef} {former inner : Item} {innerProduction : Production}
      (present : chart.item? parent = some former)
      (innerPresent : chart.item? child = some inner)
      (parentColumn : parent.column = inner.origin)
      (sameColumn : child.column = place.column)
      (earlier : child.index < place.index)
      (parentEarlier : parent.Before place)
      (innerComplete : inner.isComplete = true)
      (innerFound : grammar.production? inner.production = some innerProduction)
      (moves : former.Moves grammar innerProduction.lhs item) :
      Accounts grammar chart place item (.completed parent child)

/-- A chart that agrees with its grammar, with the input and with itself. -/
structure Chart.Accountable (grammar : Grammar) (tokens : List Token) (chart : Chart) : Prop where
  firstColumn : 0 < chart.size ∧ chart.token? 0 = none
  laterColumns : ∀ {column}, column + 1 < chart.size →
    ∃ token, tokens[column]? = some token ∧ chart.token? (column + 1) = some token
  distinct : ∀ {first second left right}, chart.item? first = some left →
    chart.item? second = some right → first.column = second.column →
    left.production = right.production → left.dot = right.dot → left.origin = right.origin →
    first = second
  keyed : ∀ {place item}, chart.item? place = some item →
    chart.find? place.column item.key = some place
  seeded : ∃ item, chart.item? ⟨0, 0⟩ = some item ∧ item.provenance = .seed
  formed : ∀ {place item}, chart.item? place = some item → item.origin ≤ place.column ∧
    ∃ production, grammar.production? item.production = some production ∧
      item.dot ≤ production.rhs.length ∧ item.Filled production
  accounted : ∀ {place item}, chart.item? place = some item →
    chart.Accounts grammar place item item.provenance

variable {grammar : Grammar} {tokens : List Token} {chart : Chart}

theorem Item.filled_of_payload {production : Production} {item : Item} {values : List Value}
    (held : item.payload = Engine.payloadAt production item.dot values)
    (counted : values.length = item.dot) (bounded : item.dot ≤ production.rhs.length) :
    item.Filled production := by
  unfold Item.Filled
  rw [held]
  unfold Engine.payloadAt
  by_cases complete : item.dot = production.rhs.length
  · rw [if_pos complete]
    exact complete
  · rw [if_neg complete]
    exact ⟨by omega, counted⟩

theorem Tree.length_values (reducer? : Nat → Option Reducer) (trees : List Tree) :
    (Tree.values reducer? trees).length = trees.length := by
  induction trees with
  | nil => rfl
  | cons tree rest inductionHypothesis => simp [Tree.values, inductionHypothesis]

theorem Item.Reads.filled {column : Nat} {item : Item} (reads : item.Reads grammar tokens column) :
    ∃ production, grammar.production? item.production = some production ∧
      item.dot ≤ production.rhs.length ∧ item.Filled production := by
  obtain ⟨production, trees, found, bounded, _, forest, held⟩ := reads
  have counted : (Tree.values grammar.reducer? trees).length = item.dot := by
    rw [Tree.length_values, forest.length_eq, List.length_take_of_le bounded]
  exact ⟨production, found, bounded, Item.filled_of_payload held counted bounded⟩

theorem Item.moves_advanced {item : Item} {symbol : SymbolId} (production : Production)
    (value : Value) (provenance : Provenance) (awaited : item.next? grammar = some symbol) :
    item.Moves grammar symbol (item.advanced production value provenance) :=
  ⟨rfl, rfl, rfl, awaited⟩

theorem Founded.accounts {place : ItemRef} {item : Item}
    (coherent : Coherent grammar tokens chart) (present : chart.item? place = some item)
    (founded : Founded grammar tokens chart place item) :
    chart.Accounts grammar place item item.provenance := by
  have inside := Chart.column_lt_size present
  cases founded with
  | seed first => exact .seed first
  | predicted predictorPresent sameColumn before found awaited =>
      have earlier := before.resolve_left (by omega)
      exact .predicted predictorPresent sameColumn earlier.2 found awaited rfl rfl
  | @scanned source former production token symbol sourcePresent nextColumn read found spelled
      awaited =>
      have recorded : chart.token? place.column = some token := by
        rw [coherent.recorded inside, nextColumn]
        exact read
      exact .scanned sourcePresent nextColumn.symm recorded spelled
        (Item.moves_advanced production _ _ awaited)
  | @completed parent child former inner production innerProduction value parentPresent
      innerPresent parentColumn childColumn before innerBefore found innerFound awaited reduced =>
      have earlier := innerBefore.resolve_left (by omega)
      have innerComplete : inner.isComplete = true := by
        rw [Item.isComplete, reduced]
        rfl
      exact .completed parentPresent innerPresent parentColumn childColumn earlier.2 before
        innerComplete innerFound (Item.moves_advanced production _ _ awaited)

theorem Chart.Keyed.find?_key {place : ItemRef} {item : Item} (keyed : chart.Keyed)
    (present : chart.item? place = some item) :
    chart.find? place.column item.key = some place :=
  (keyed _ _ _).mpr ⟨rfl, item, present, rfl⟩

/-- Items of one column with the same production, dot and origin have the same key, which leads to
one place only. -/
theorem Chart.Keyed.place_unique {first second : ItemRef} {left right : Item} (keyed : chart.Keyed)
    (leftPresent : chart.item? first = some left) (rightPresent : chart.item? second = some right)
    (sameColumn : first.column = second.column) (sameProduction : left.production = right.production)
    (sameDot : left.dot = right.dot) (sameOrigin : left.origin = right.origin) :
    first = second := by
  have sameKey : left.key = right.key := by
    simp only [Item.key, sameProduction, sameDot, sameOrigin]
  have found := keyed.find?_key leftPresent
  rw [sameColumn, sameKey, keyed.find?_key rightPresent] at found
  exact (Option.some.inj found).symm

theorem Coherent.accountable (consistent : grammar.Consistent)
    (coherent : Coherent grammar tokens chart) : chart.Accountable grammar tokens where
  firstColumn := by
    have inside := Chart.column_lt_size coherent.seeded
    exact ⟨inside, coherent.recorded inside⟩
  laterColumns := by
    intro column inside
    have short := coherent.short
    have read : tokens[column]? = some tokens[column] := List.getElem?_eq_getElem (by omega)
    refine ⟨_, read, ?_⟩
    rw [coherent.recorded inside]
    exact read
  distinct := coherent.keyed.place_unique
  keyed := coherent.keyed.find?_key
  seeded := ⟨grammar.seed, coherent.seeded, rfl⟩
  formed := by
    intro place item present
    exact ⟨coherent.origin_le consistent present, (coherent.reads consistent present).filled⟩
  accounted := fun present => (coherent.founded present).accounts coherent present

namespace Declaration

/-- The chart of a parse accounts for its items, whatever the parse ends in. -/
theorem run_chart_accountable {declaration : Declaration} {grammar : Grammar}
    (built : declaration.build = .ok grammar) (limits : Limits) (tokens : List Token) :
    (grammar.run limits tokens).chart.Accountable grammar tokens := by
  obtain ⟨start, numbers⟩ := numbers_of_build built
  exact (numbers.consistent.run_coherent limits tokens).accountable numbers.consistent

/-- The parse of `1 +` that a limit stops inside a column leaves an accountable chart. -/
theorem limited_openSum_accountable :
    ((sums.grammar "sum").run { maxItems := 6 } openSum).stats = ⟨3, 16, 0⟩ ∧
      ((sums.grammar "sum").run { maxItems := 6 } openSum).chart.Accountable
        (sums.grammar "sum") openSum :=
  ⟨by decide +kernel, run_chart_accountable build_sums _ _⟩

end Declaration

end EarleyChart
