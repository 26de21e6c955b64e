import EarleyChart.Proofs.Coherence
import EarleyChart.Proofs.Ending

/-!
Contract: what each operation of a parse does to the chart.

An operation on a column keeps the chart coherent and adds to that column only, whether it returns
or stops, and it stops at nothing but the limit on the items of a column. Where it returns, the keys
that it stands for are in the column; `Settled` says this of an item that has been processed.
-/

namespace EarleyChart

/-- A column holds an item with a key. -/
def Chart.HasKey (chart : Chart) (column : Nat) (key : ItemKey) : Prop :=
  ∃ index item, chart.item? ⟨column, index⟩ = some item ∧ item.key = key

/-- The key of an item whose dot has moved on by one. -/
def Item.nextKey (item : Item) : ItemKey :=
  { item.key with dot := item.key.dot + 1 }

theorem Chart.Keyed.hasKey_iff {chart : Chart} (keyed : chart.Keyed) {column : Nat}
    {key : ItemKey} : chart.HasKey column key ↔ (chart.find? column key).isSome = true := by
  rw [Option.isSome_iff_exists]
  constructor
  · intro parts
    obtain ⟨index, item, present, rfl⟩ := parts
    exact ⟨⟨column, index⟩, (keyed _ _ _).mpr ⟨rfl, item, present, rfl⟩⟩
  · intro parts
    obtain ⟨⟨_, index⟩, found⟩ := parts
    obtain ⟨rfl, item, present, rfl⟩ := (keyed _ _ _).mp found
    exact ⟨index, item, present, rfl⟩

theorem Chart.HasKey.grows {before after : Chart} {column other : Nat} {key : ItemKey}
    (held : before.HasKey column key) (grows : before.Grows other after) :
    after.HasKey column key := by
  obtain ⟨index, item, present, sameKey⟩ := held
  exact ⟨index, item, grows.items present, sameKey⟩

namespace Engine

/-- The chart is coherent still, and has only grown in one column. -/
structure Progress (grammar : Grammar) (tokens : List Token) (column : Nat)
    (before after : ParseState) : Prop where
  coherent : Coherent grammar tokens after.chart
  grows : before.chart.Grows column after.chart

/-- The column has become too large. -/
structure Overflow (grammar : Grammar) (tokens : List Token) (limits : Limits) (column : Nat)
    (before : ParseState) (error : ParseError) (after : ParseState) : Prop where
  progress : Progress grammar tokens column before after
  limited : limits.maxItems ≠ 0
  tooLarge : ∃ items, error = .columnTooLarge column items limits.maxItems

variable {grammar : Grammar} {tokens : List Token} {limits : Limits} {column : Nat}
  {state : ParseState}

theorem Progress.trans {first second third : ParseState}
    (former : Progress grammar tokens column first second)
    (latter : Progress grammar tokens column second third) :
    Progress grammar tokens column first third :=
  ⟨latter.coherent, former.grows.trans latter.grows⟩

theorem Overflow.after {first second third : ParseState} {error : ParseError}
    (former : Progress grammar tokens column first second)
    (overflow : Overflow grammar tokens limits column second error third) :
    Overflow grammar tokens limits column first error third :=
  ⟨former.trans overflow.progress, overflow.limited, overflow.tooLarge⟩

/-- A loop whose rounds each make progress and put a key into the column. -/
theorem ends_loop {β : Type} {elements : List β} {step : β → Engine Unit} (key : β → ItemKey)
    (coherent : Coherent grammar tokens state.chart)
    (round : ∀ element ∈ elements, ∀ middle, Progress grammar tokens column state middle →
      Ends (step element) middle
        (fun _ next => Progress grammar tokens column middle next ∧
          next.chart.HasKey column (key element))
        (Overflow grammar tokens limits column middle)) :
    Ends (elements.forM step) state
      (fun _ next => Progress grammar tokens column state next ∧
        ∀ element ∈ elements, next.chart.HasKey column (key element))
      (Overflow grammar tokens limits column state) := by
  refine (ends_forM (Progress grammar tokens column state)
    (fun element next => next.chart.HasKey column (key element)) ?_ ⟨coherent, .refl _⟩).mono
    (fun _ _ reached => ⟨reached.1, reached.2.1⟩) (fun _ _ stops => stops)
  intro element member middle progress
  refine (round element member middle progress).mono ?_ (fun _ _ stops => stops.after progress)
  intro _ next reached
  obtain ⟨further, held⟩ := reached
  exact ⟨progress.trans further, held, fun other before => before.grows further.grows⟩

/-- A column that an operation adds to: the last one, or the one that a token leads to. -/
structure Opens (tokens : List Token) (chart : Chart) (column : Nat) (token : Option Token) :
    Prop where
  reached : column ≤ chart.size
  leads : column = chart.size → column ≤ tokens.length ∧ token = leadingToken tokens column

theorem opens_of_lt {chart : Chart} (inside : column < chart.size) (token : Option Token) :
    Opens tokens chart column token :=
  ⟨Nat.le_of_lt inside, fun last => absurd last (Nat.ne_of_lt inside)⟩

section Placing

variable {item : Item} {token : Option Token} {done : Insertion → ParseState → Prop}
  {stopped : ParseError → ParseState → Prop}

theorem ends_place_of_found {held : ItemRef} (origin : item.origin ≤ column)
    (found : state.chart.find? column item.key = some held) :
    Ends (place column item token) state done stopped ↔ done (.duplicate held) state := by
  obtain ⟨chart, ambiguities⟩ := state
  simp only [Ends, place, Chart.insert_of_found origin found]

theorem ends_place_of_fresh (origin : item.origin ≤ column)
    (reached : column ≤ state.chart.size) (fresh : state.chart.find? column item.key = none) :
    Ends (place column item token) state done stopped ↔
      done (.added ⟨column, state.chart.width column⟩)
        { state with chart := state.chart.add column item token } := by
  obtain ⟨chart, ambiguities⟩ := state
  simp only [Ends, place, Chart.insert_of_fresh origin reached fresh]

end Placing

theorem ends_insert (consistent : grammar.Consistent)
    (coherent : Coherent grammar tokens state.chart) {item : Item} {token : Option Token}
    (opens : Opens tokens state.chart column token)
    (founded : Founded grammar tokens state.chart ⟨column, state.chart.width column⟩ item) :
    Ends (insert limits column item token) state
      (fun _ next => Progress grammar tokens column state next ∧
        next.chart.HasKey column item.key)
      (Overflow grammar tokens limits column state) := by
  obtain ⟨_, _, _, _, origin, _, _⟩ :=
    founded.reads consistent fun _ present => coherent.reads consistent present
  unfold insert
  rw [ends_bind]
  cases held : state.chart.find? column item.key with
  | some place =>
      rw [ends_place_of_found origin held]
      refine ⟨⟨coherent, .refl _⟩, ?_⟩
      rw [coherent.keyed.hasKey_iff, held]
      rfl
  | none =>
      rw [ends_place_of_fresh origin opens.reached held]
      have progress : Progress grammar tokens column state
          { state with chart := state.chart.add column item token } :=
        ⟨coherent.add opens.reached held founded opens.leads, .add opens.reached⟩
      have added : (state.chart.add column item token).HasKey column item.key := by
        refine ⟨state.chart.width column, item, ?_, rfl⟩
        rw [Chart.item?_add opens.reached, if_pos rfl]
      rw [ends_ite]
      split
      next full => exact ⟨progress, full.1, _, rfl⟩
      next => exact ⟨progress, added⟩

theorem ends_getProduction {id : ProductionId} {production : Production}
    {done : Production → ParseState → Prop} {stopped : ParseError → ParseState → Prop}
    (found : grammar.production? id = some production) :
    Ends (getProduction grammar id) state done stopped ↔ done production state := by
  simp only [getProduction, found, ends_pure]

theorem ends_advance (consistent : grammar.Consistent)
    (coherent : Coherent grammar tokens state.chart) {source : ItemRef} {item : Item}
    {production : Production} {value : Value} {provenance : Provenance} {token : Option Token}
    (present : state.chart.item? source = some item)
    (found : grammar.production? item.production = some production)
    (opens : Opens tokens state.chart column token)
    (founded : Founded grammar tokens state.chart ⟨column, state.chart.width column⟩
      (item.advanced production value provenance)) :
    Ends (advance grammar limits column source value provenance token) state
      (fun _ next => Progress grammar tokens column state next ∧
        next.chart.HasKey column item.nextKey)
      (Overflow grammar tokens limits column state) := by
  unfold advance
  rw [ends_bind, ends_getChart]
  simp only [present]
  rw [ends_bind, ends_getChart, ends_ite]
  split
  next held =>
    exact ⟨⟨coherent, .refl _⟩, coherent.keyed.hasKey_iff.mpr held⟩
  next =>
    rw [ends_bind, ends_getProduction found]
    rw [Item.nextKey, ← Item.key_advanced item production value provenance]
    exact ends_insert consistent coherent opens founded

/-- Places of a column with a property. -/
theorem mem_indicesBelow {found : Column} {limit index : Nat} {property : Item → Bool} :
    index ∈ found.indicesBelow limit property ↔
      index < limit ∧ ∃ item, found.items[index]? = some item ∧ property item = true := by
  simp only [Column.indicesBelow, List.mem_filter, List.mem_range, Option.any_eq_true]
  constructor
  · intro parts
    obtain ⟨below, item, present, holds⟩ := parts
    exact ⟨by omega, item, present, holds⟩
  · intro parts
    obtain ⟨below, item, present, holds⟩ := parts
    have inside := (Array.getElem?_eq_some_iff.mp present).1
    exact ⟨by omega, item, present, holds⟩

/-- The place after the last item of a column comes after the items of that column and of earlier
ones. -/
theorem before_width {chart : Chart} {place : ItemRef} {item : Item}
    (present : chart.item? place = some item) (reached : place.column ≤ column) :
    place.Before ⟨column, chart.width column⟩ := by
  by_cases same : place.column = column
  · subst same
    exact .inr ⟨rfl, Chart.index_lt_width_iff.mpr ⟨item, present⟩⟩
  · exact .inl (by change place.column < column; omega)

theorem ends_predictProduction (consistent : grammar.Consistent)
    (coherent : Coherent grammar tokens state.chart) {predictor : ItemRef} {waiting : Item}
    {id : ProductionId} {production : Production}
    (present : state.chart.item? predictor = some waiting)
    (found : grammar.production? id = some production)
    (awaited : waiting.next? grammar = some production.lhs) :
    Ends (predictProduction grammar limits predictor id) state
      (fun _ next => Progress grammar tokens predictor.column state next ∧
        next.chart.HasKey predictor.column ⟨id, 0, UInt32.ofNat predictor.column⟩)
      (Overflow grammar tokens limits predictor.column state) := by
  unfold predictProduction
  rw [ends_bind, ends_getChart, ends_ite]
  split
  next =>
    rw [ends_bind, ends_getProduction found]
    exact ends_insert consistent coherent
      (opens_of_lt (Chart.column_lt_size present) none)
      (.predicted present rfl (before_width present (Nat.le_refl _)) found awaited)
  next held =>
    refine ⟨⟨coherent, .refl _⟩, coherent.keyed.hasKey_iff.mpr ?_⟩
    simpa [Option.isSome_iff_ne_none] using held

/-- A complete item derives its left-hand side. -/
structure Completes (grammar : Grammar) (item : Item) (symbol : SymbolId) (value : Value) :
    Prop where
  lhs : ∃ production, grammar.production? item.production = some production ∧
    production.lhs = symbol
  reduced : item.value? = some value

theorem mem_emptyDerivations {chart : Chart} {symbol : SymbolId} {before child : ItemRef}
    {value : Value} :
    (child, value) ∈ emptyDerivations grammar chart symbol before ↔
      child.column = before.column ∧ child.index < before.index ∧
        ∃ item, chart.item? child = some item ∧ item.origin = before.column ∧
          Completes grammar item symbol value := by
  unfold emptyDerivations
  cases reached : chart.column? before.column with
  | none =>
      simp only [List.not_mem_nil, false_iff]
      intro parts
      obtain ⟨sameColumn, _, item, present, _⟩ := parts
      obtain ⟨column, found, _⟩ := Chart.item?_eq_some_iff.mp present
      rw [sameColumn, reached] at found
      contradiction
  | some column =>
      have item?_eq := Chart.item?_of_column? reached
      simp only [List.mem_filterMap, mem_indicesBelow, isEmptyDerivation, Item.isComplete,
        Bool.and_eq_true, beq_iff_eq, Option.map_eq_some_iff, Option.bind_eq_some_iff]
      constructor
      · intro parts
        obtain ⟨index, ⟨below, item, present, ⟨_, origin⟩, lhs⟩, reduced, ⟨same, samePresent,
          value⟩, pair⟩ := parts
        obtain ⟨rfl, rfl⟩ := Prod.mk.inj pair
        obtain rfl := Option.some.inj (present.symm.trans samePresent)
        exact ⟨rfl, below, item, (item?_eq index).trans present, origin, lhs, value⟩
      · obtain ⟨childColumn, index⟩ := child
        intro parts
        obtain ⟨rfl, below, item, present, origin, lhs, reduced⟩ := parts
        rw [item?_eq index] at present
        refine ⟨index, ⟨below, item, present, ⟨?_, origin⟩, lhs⟩, value, ⟨item, present, reduced⟩,
          rfl⟩
        rw [reduced]
        rfl

/-- What prediction from an item achieves: the productions of the symbol after its dot are in the
column, and the item has moved over the empty derivations that came before it. -/
structure Predicts (grammar : Grammar) (chart : Chart) (place : ItemRef) (item : Item)
    (symbol : SymbolId) : Prop where
  started : ∀ id ∈ grammar.productionsFor symbol,
    chart.HasKey place.column ⟨id, 0, UInt32.ofNat place.column⟩
  skipped : grammar.isNullable symbol = true →
    ∀ {child inner value}, child.column = place.column → child.index < place.index →
      chart.item? child = some inner → inner.origin = place.column →
      Completes grammar inner symbol value → chart.HasKey place.column item.nextKey

theorem ends_predict (consistent : grammar.Consistent)
    (coherent : Coherent grammar tokens state.chart) {place : ItemRef} {item : Item}
    {symbol : SymbolId} (present : state.chart.item? place = some item)
    (awaited : item.next? grammar = some symbol) :
    Ends (predict grammar limits place symbol) state
      (fun _ next => Progress grammar tokens place.column state next ∧
        Predicts grammar next.chart place item symbol)
      (Overflow grammar tokens limits place.column state) := by
  unfold predict
  rw [ends_bind]
  have predicted : Ends
      ((grammar.productionsFor symbol).forM (predictProduction grammar limits place)) state
      (fun _ next => Progress grammar tokens place.column state next ∧
        ∀ id ∈ grammar.productionsFor symbol,
          next.chart.HasKey place.column ⟨id, 0, UInt32.ofNat place.column⟩)
      (Overflow grammar tokens limits place.column state) := by
    refine ends_loop _ coherent fun id member middle progress => ?_
    obtain ⟨production, found, rfl⟩ := consistent.listed.mp member
    exact ends_predictProduction consistent progress.coherent (progress.grows.items present) found
      awaited
  refine predicted.mono ?_ (fun _ _ stops => stops)
  intro _ middle reached
  obtain ⟨progress, started⟩ := reached
  have presentStill := progress.grows.items present
  have below : place.index < middle.chart.width place.column :=
    Chart.index_lt_width_iff.mpr ⟨item, presentStill⟩
  rw [ends_ite]
  split
  next nullable =>
    rw [ends_bind, ends_getChart]
    have skipped : Ends
        ((emptyDerivations grammar middle.chart symbol place).forM fun pair =>
          advance grammar limits place.column place pair.2 (.completed place pair.1) none) middle
        (fun _ next => Progress grammar tokens place.column middle next ∧
          ∀ pair ∈ emptyDerivations grammar middle.chart symbol place,
            next.chart.HasKey place.column item.nextKey)
        (Overflow grammar tokens limits place.column middle) := by
      refine ends_loop _ progress.coherent ?_
      intro parts member later further
      obtain ⟨child, value⟩ := parts
      obtain ⟨childColumn, _, inner, innerPresent, origin, ⟨innerProduction, innerFound, lhs⟩,
        reduced⟩ := mem_emptyDerivations.mp member
      obtain ⟨production, found, _⟩ := next?_eq_some_iff.mp awaited
      have itemNow := further.grows.items presentStill
      have innerNow := further.grows.items innerPresent
      exact ends_advance consistent further.coherent itemNow found
        (opens_of_lt (Chart.column_lt_size itemNow) none)
        (.completed itemNow innerNow origin.symm childColumn
          (before_width itemNow (Nat.le_refl _))
          (before_width innerNow (Nat.le_of_eq childColumn)) found innerFound
          (lhs ▸ awaited) reduced)
    refine skipped.mono ?_ (fun _ _ stops => stops.after progress)
    intro _ next reached
    obtain ⟨further, advanced⟩ := reached
    refine ⟨progress.trans further,
      fun id member => (started id member).grows further.grows, ?_⟩
    intro _ child inner value childColumn earlier innerPresent origin completes
    -- The empty derivations before the item were all there when the loop began.
    have innerBefore : middle.chart.item? child = some inner := by
      rw [← further.grows.item?_eq (by rw [childColumn]; omega)]
      exact innerPresent
    exact advanced (child, value) (mem_emptyDerivations.mpr
      ⟨childColumn, earlier, inner, innerBefore, origin, completes⟩)
  next notNullable =>
    exact ⟨progress, started, fun nullable => absurd nullable notNullable⟩

theorem mem_waiting {chart : Chart} {symbol : SymbolId} {child parent : ItemRef} {origin : Nat}
    {found : Column} (reached : chart.column? origin = some found) :
    parent ∈ waiting grammar symbol child origin found ↔
      parent.column = origin ∧ (origin = child.column → parent.index < child.index) ∧
        ∃ item, chart.item? parent = some item ∧ item.next? grammar = some symbol := by
  have item?_eq := Chart.item?_of_column? reached
  unfold waiting
  simp only [List.mem_map, mem_indicesBelow, beq_iff_eq]
  constructor
  · intro parts
    obtain ⟨index, ⟨below, item, present, awaited⟩, rfl⟩ := parts
    refine ⟨rfl, ?_, item, (item?_eq index).trans present, awaited⟩
    intro same
    rwa [if_pos same] at below
  · obtain ⟨parentColumn, index⟩ := parent
    intro parts
    obtain ⟨rfl, below, item, present, awaited⟩ := parts
    rw [item?_eq index] at present
    refine ⟨index, ⟨?_, item, present, awaited⟩, rfl⟩
    split
    next same => exact below same
    next => exact (Array.getElem?_eq_some_iff.mp present).1

/-- What completion with an item achieves: the items that wait for its left-hand side have moved
on. -/
def Resumes (grammar : Grammar) (chart : Chart) (place : ItemRef) (item : Item)
    (symbol : SymbolId) : Prop :=
  ∀ {parent earlier}, parent.column = item.origin →
    (item.origin = place.column → parent.index < place.index) →
    chart.item? parent = some earlier → earlier.next? grammar = some symbol →
    chart.HasKey place.column earlier.nextKey

theorem ends_complete (consistent : grammar.Consistent)
    (coherent : Coherent grammar tokens state.chart) {place : ItemRef} {item : Item}
    {symbol : SymbolId} {value : Value} (present : state.chart.item? place = some item)
    (completes : Completes grammar item symbol value) :
    Ends (complete grammar limits place symbol item.origin value) state
      (fun _ next => Progress grammar tokens place.column state next ∧
        Resumes grammar next.chart place item symbol)
      (Overflow grammar tokens limits place.column state) := by
  have origin := coherent.origin_le consistent present
  have inside := Chart.column_lt_size present
  obtain ⟨found, reached⟩ : ∃ found, state.chart.column? item.origin = some found :=
    ⟨_, Array.getElem?_eq_getElem (Nat.lt_of_le_of_lt origin inside)⟩
  obtain ⟨⟨innerProduction, innerFound, rfl⟩, reduced⟩ := completes
  unfold complete
  rw [ends_bind, ends_getChart]
  simp only [reached]
  let key (parent : ItemRef) : ItemKey :=
    ((state.chart.item? parent).map Item.nextKey).getD default
  have resumed : Ends
      ((waiting grammar innerProduction.lhs place item.origin found).forM fun parent =>
        advance grammar limits place.column parent value (.completed parent place) none) state
      (fun _ next => Progress grammar tokens place.column state next ∧
        ∀ parent ∈ waiting grammar innerProduction.lhs place item.origin found,
          next.chart.HasKey place.column (key parent))
      (Overflow grammar tokens limits place.column state) := by
    refine ends_loop key coherent fun parent member middle progress => ?_
    obtain ⟨parentColumn, _, earlier, earlierPresent, awaited⟩ := (mem_waiting reached).mp member
    obtain ⟨production, earlierFound, _⟩ := next?_eq_some_iff.mp awaited
    have keyed : key parent = earlier.nextKey := by simp [key, earlierPresent]
    rw [keyed]
    have earlierNow := progress.grows.items earlierPresent
    have itemNow := progress.grows.items present
    exact ends_advance consistent progress.coherent earlierNow earlierFound
      (opens_of_lt (Chart.column_lt_size itemNow) none)
      (.completed earlierNow itemNow parentColumn rfl
        (before_width earlierNow (parentColumn ▸ origin)) (before_width itemNow (Nat.le_refl _))
        earlierFound innerFound awaited reduced)
  refine resumed.mono ?_ (fun _ _ stops => stops)
  intro _ next reached
  obtain ⟨progress, advanced⟩ := reached
  refine ⟨progress, ?_⟩
  intro parent earlier parentColumn earlierPlace earlierPresent awaited
  -- Items that wait in the same column count only if they are before the complete one, and those
  -- were all there when the loop began.
  have earlierBefore : state.chart.item? parent = some earlier := by
    by_cases same : item.origin = place.column
    · have below : place.index < state.chart.width place.column :=
        Chart.index_lt_width_iff.mpr ⟨item, present⟩
      have parentBelow := earlierPlace same
      rw [← progress.grows.item?_eq (by rw [parentColumn, same]; omega)]
      exact earlierPresent
    · rw [← progress.grows.elsewhere (by omega)]
      exact earlierPresent
  have advancedParent := advanced parent
    ((mem_waiting reached).mpr ⟨parentColumn, earlierPlace, earlier, earlierBefore, awaited⟩)
  simpa [key, earlierBefore] using advancedParent

/-- What an item that has been processed has achieved. -/
structure Settled (grammar : Grammar) (chart : Chart) (place : ItemRef) (item : Item) : Prop where
  predicts : ∀ {symbol}, item.next? grammar = some symbol → grammar.isTerminal symbol = false →
    Predicts grammar chart place item symbol
  resumes : ∀ {symbol value}, Completes grammar item symbol value →
    Resumes grammar chart place item symbol

/-- An item with a symbol after its dot is not complete. -/
theorem not_completes_of_next? {item : Item} {symbol lhs : SymbolId} {value : Value}
    (reads : item.Reads grammar tokens column) (awaited : item.next? grammar = some symbol) :
    ¬ Completes grammar item lhs value := by
  intro parts
  obtain ⟨_, reduced⟩ := parts
  obtain ⟨production, trees, found, _, _, _, held⟩ := reads
  obtain ⟨complete, _⟩ := reduced_of_payload held reduced
  have symbolAt := rhs_of_next? found awaited
  rw [complete, List.getElem?_length] at symbolAt
  contradiction

/-- An item without a symbol after its dot is complete. -/
theorem completes_of_next?_eq_none {item : Item} (reads : item.Reads grammar tokens column)
    (ended : item.next? grammar = none) :
    ∃ production value, grammar.production? item.production = some production ∧
      item.value? = some value := by
  obtain ⟨production, trees, found, bounded, _, _, held⟩ := reads
  have past : production.rhs.length ≤ item.dot := by
    simpa [Item.next?, Grammar.symbolAt?, found] using ended
  refine ⟨production, production.reduce (Tree.values grammar.reducer? trees), found, ?_⟩
  rw [Item.value?, held, payloadAt, if_pos (Nat.le_antisymm bounded past)]

theorem ends_process (consistent : grammar.Consistent)
    (coherent : Coherent grammar tokens state.chart) {place : ItemRef} {item : Item}
    (present : state.chart.item? place = some item) :
    Ends (process grammar limits place item) state
      (fun _ next => Progress grammar tokens place.column state next ∧
        Settled grammar next.chart place item)
      (Overflow grammar tokens limits place.column state) := by
  have reads := coherent.reads consistent present
  unfold process
  cases awaited : item.next? grammar with
  | some symbol =>
      dsimp only
      rw [ends_ite]
      split
      next nonterminal =>
        refine (ends_predict consistent coherent present awaited).mono ?_ (fun _ _ stops => stops)
        intro _ next reached
        obtain ⟨progress, predicts⟩ := reached
        refine ⟨progress, ?_, fun completes =>
          absurd completes (not_completes_of_next? reads awaited)⟩
        intro other otherAwaited _
        obtain rfl := Option.some.inj (awaited.symm.trans otherAwaited)
        exact predicts
      next terminal =>
        refine ⟨⟨coherent, .refl _⟩, ?_, fun completes =>
          absurd completes (not_completes_of_next? reads awaited)⟩
        intro other otherAwaited nonterminal
        obtain rfl := Option.some.inj (awaited.symm.trans otherAwaited)
        rw [nonterminal] at terminal
        contradiction
  | none =>
      obtain ⟨production, value, found, reduced⟩ := completes_of_next?_eq_none reads awaited
      dsimp only
      rw [ends_bind, ends_getProduction found]
      simp only [reduced]
      refine (ends_complete consistent coherent present ⟨⟨production, found, rfl⟩, reduced⟩).mono ?_
        (fun _ _ stops => stops)
      intro _ next reached
      obtain ⟨progress, resumes⟩ := reached
      refine ⟨progress, fun otherAwaited => ?_, ?_⟩
      · rw [awaited] at otherAwaited
        contradiction
      · intro symbol other parts
        obtain ⟨⟨same, sameFound, rfl⟩, _⟩ := parts
        obtain rfl := Option.some.inj (found.symm.trans sameFound)
        exact resumes

end Engine

end EarleyChart
