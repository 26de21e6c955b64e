import EarleyChart.Proofs.Closure

/-!
Contract: closed charts hold every item that the input calls for, and no other.

`Ready` is the chart between two tokens: its columns are closed and lead into each other. There an
item that waits for some symbols has moved on over whatever tokens these derive
(`Ready.holds_of_forest`), and where a symbol can come next some item expects it
(`Ready.awaits_of_begins`). Conversely `Coherent.begins_of_next` shows of any coherent chart that an
expected symbol can come next, by following the item's reasons back to the start of the parse.

Keys hold dots and origins in words, so that items are told apart only while these fit: `Fits`.
-/

namespace EarleyChart

/-- Dots and origins fit into words. -/
structure Fits (grammar : Grammar) (tokens : List Token) : Prop where
  dots : ∀ {id production}, grammar.production? id = some production →
    production.rhs.length < UInt32.size
  origins : tokens.length < UInt32.size

/-- A column holds an item with the given production, dot and origin. -/
def Chart.Holds (chart : Chart) (column : Nat) (id : ProductionId) (dot origin : Nat) : Prop :=
  ∃ place item, place.column = column ∧ chart.item? place = some item ∧
    item.production = id ∧ item.dot = dot ∧ item.origin = origin

/-- An item of a column expects a symbol. -/
def Chart.Awaits (grammar : Grammar) (chart : Chart) (column : Nat) (symbol : SymbolId) : Prop :=
  ∃ place item, place.column = column ∧ chart.item? place = some item ∧
    item.next? grammar = some symbol

/-- A chart whose columns are closed up to the last one, `consumed` tokens into the input. -/
structure Ready (grammar : Grammar) (tokens : List Token) (chart : Chart) (consumed : Nat) :
    Prop where
  coherent : Coherent grammar tokens chart
  size : chart.size = consumed + 1
  settled : ∀ {column}, column ≤ consumed → Engine.ColumnSettled grammar chart column
  scanned : ∀ {column token}, column < consumed → tokens[column]? = some token →
    Engine.Scanned grammar chart column token

variable {grammar : Grammar} {tokens : List Token} {chart : Chart}

private theorem word_inj {first second : Nat} (firstFits : first < UInt32.size)
    (secondFits : second < UInt32.size) (same : UInt32.ofNat first = UInt32.ofNat second) :
    first = second := by
  have numbers := congrArg UInt32.toNat same
  rwa [UInt32.toNat_ofNat_of_lt' firstFits, UInt32.toNat_ofNat_of_lt' secondFits] at numbers

/-- Under `Fits` a key tells production, dot and origin of its item. -/
theorem Coherent.holds_of_hasKey {column dot origin : Nat} {id : ProductionId}
    (consistent : grammar.Consistent) (fits : Fits grammar tokens)
    (coherent : Coherent grammar tokens chart) (dotFits : dot < UInt32.size)
    (originFits : origin < UInt32.size)
    (held : chart.HasKey column ⟨id, UInt32.ofNat dot, UInt32.ofNat origin⟩) :
    chart.Holds column id dot origin := by
  obtain ⟨index, item, present, sameKey⟩ := held
  obtain ⟨production, _, found, bounded, reached, _, _⟩ := coherent.reads consistent present
  have inside := Chart.column_lt_size present
  have short := coherent.short
  have dotsFit := fits.dots found
  have originsFit := fits.origins
  obtain ⟨sameProduction, sameDot, sameOrigin⟩ := ItemKey.mk.inj sameKey
  change item.origin ≤ column at reached
  change column < chart.size at inside
  exact ⟨⟨column, index⟩, item, rfl, present, sameProduction,
    word_inj (by omega) dotFits sameDot, word_inj (by omega) originFits sameOrigin⟩

/-- The key of a moved dot tells production, dot and origin. -/
theorem Coherent.holds_of_nextKey {place : ItemRef} {item : Item} {symbol : SymbolId} {column : Nat}
    (consistent : grammar.Consistent) (fits : Fits grammar tokens)
    (coherent : Coherent grammar tokens chart) (present : chart.item? place = some item)
    (awaited : item.next? grammar = some symbol) (held : chart.HasKey column item.nextKey) :
    chart.Holds column item.production (item.dot + 1) item.origin := by
  obtain ⟨production, _, found, _, reached, _, _⟩ := coherent.reads consistent present
  have bounded := (List.getElem?_eq_some_iff.mp (rhs_of_next? found awaited)).1
  have inside := Chart.column_lt_size present
  have short := coherent.short
  have dotsFit := fits.dots found
  have originsFit := fits.origins
  have key : item.nextKey =
      ⟨item.production, UInt32.ofNat (item.dot + 1), UInt32.ofNat item.origin⟩ := by
    simp [Item.nextKey, Item.key]
  rw [key] at held
  exact coherent.holds_of_hasKey consistent fits (by omega) (by omega) held

/-- The symbols after the dot of an item that expects one. -/
theorem drop_of_next? {item : Item} {production : Production} {symbol : SymbolId}
    (found : grammar.production? item.production = some production)
    (awaited : item.next? grammar = some symbol) :
    production.rhs.drop item.dot = symbol :: production.rhs.drop (item.dot + 1) := by
  obtain ⟨inside, rfl⟩ := List.getElem?_eq_some_iff.mp (rhs_of_next? found awaited)
  exact List.drop_eq_getElem_cons inside

/-- A complete item has its dot at the end. -/
theorem Coherent.dot_of_completes {place : ItemRef} {item : Item} {symbol : SymbolId} {value : Value}
    {production : Production} (consistent : grammar.Consistent)
    (coherent : Coherent grammar tokens chart) (present : chart.item? place = some item)
    (completes : Engine.Completes grammar item symbol value)
    (found : grammar.production? item.production = some production) :
    item.dot = production.rhs.length := by
  obtain ⟨same, _, sameFound, _, _, _, held⟩ := coherent.reads consistent present
  obtain rfl := Option.some.inj (found.symm.trans sameFound)
  exact (reduced_of_payload held completes.reduced).1

/-- A complete item that began in its own column derives a nullable symbol. -/
theorem Coherent.nullable_of_completes {place : ItemRef} {item : Item} {symbol : SymbolId}
    {value : Value} (consistent : grammar.Consistent) (coherent : Coherent grammar tokens chart)
    (present : chart.item? place = some item) (empty : item.origin = place.column)
    (completes : Engine.Completes grammar item symbol value) :
    grammar.isNullable symbol = true := by
  obtain ⟨production, trees, found, _, _, forest, _⟩ := coherent.reads consistent present
  have complete := coherent.dot_of_completes consistent present completes found
  obtain ⟨⟨same, sameFound, rfl⟩, _⟩ := completes
  obtain rfl := Option.some.inj (found.symm.trans sameFound)
  rw [complete, List.take_length, empty, between_self] at forest
  exact consistent.nullable (.single_node (Grammar.rule?_of_production? found) forest)

theorem Coherent.holds_seed (coherent : Coherent grammar tokens chart) :
    chart.Holds 0 grammar.startProduction 0 0 :=
  ⟨⟨0, 0⟩, grammar.seed, rfl, coherent.seeded, rfl, rfl, rfl⟩

namespace Ready

variable {consumed : Nat}

theorem size_sub_one (ready : Ready grammar tokens chart consumed) : chart.size - 1 = consumed := by
  rw [ready.size]
  rfl

theorem consumed_le (ready : Ready grammar tokens chart consumed) : consumed ≤ tokens.length := by
  have short := ready.coherent.short
  rw [ready.size] at short
  omega

theorem column_le {place : ItemRef} {item : Item} (ready : Ready grammar tokens chart consumed)
    (present : chart.item? place = some item) : place.column ≤ consumed := by
  have inside := Chart.column_lt_size present
  rw [ready.size] at inside
  omega

/-- An item has moved over every complete item that it waited for. Which of the two came first
decides who moved the dot: the complete item when it was processed, or the waiting one when it
skipped the empty derivations before it. -/
theorem hasKey_of_completes {parent child : ItemRef} {item inner : Item} {symbol : SymbolId}
    {value : Value} (consistent : grammar.Consistent) (ready : Ready grammar tokens chart consumed)
    (present : chart.item? parent = some item) (innerPresent : chart.item? child = some inner)
    (parentColumn : parent.column = inner.origin) (awaited : item.next? grammar = some symbol)
    (completes : Engine.Completes grammar inner symbol value) :
    chart.HasKey child.column item.nextKey := by
  have settled := ready.settled (ready.column_le innerPresent) rfl innerPresent
  by_cases sameColumn : inner.origin = child.column
  · rcases Nat.lt_trichotomy parent.index child.index with earlier | same | later
    · exact settled.resumes completes parentColumn (fun _ => earlier) present awaited
    · have samePlace : parent = child := by
        cases parent
        cases child
        simp_all
      subst samePlace
      obtain rfl := Option.some.inj (present.symm.trans innerPresent)
      exact absurd completes
        (Engine.not_completes_of_next? (ready.coherent.reads consistent present) awaited)
    · have nullable := ready.coherent.nullable_of_completes consistent innerPresent sameColumn
        completes
      obtain ⟨⟨production, found, rfl⟩, reduced⟩ := completes
      have predicts := (ready.settled (ready.column_le present) rfl present).predicts awaited
        (consistent.nonterminal found)
      have inColumn : parent.column = child.column := parentColumn.trans sameColumn
      rw [← inColumn]
      exact predicts.skipped nullable inColumn.symm later innerPresent parentColumn.symm
        ⟨⟨production, found, rfl⟩, reduced⟩
  · exact settled.resumes completes parentColumn (fun same => absurd same sameColumn) present
      awaited

/-- An item that waits for a nonterminal has predicted its productions. -/
theorem holds_of_next? {place : ItemRef} {item : Item} {id : ProductionId} {production : Production}
    (consistent : grammar.Consistent) (fits : Fits grammar tokens)
    (ready : Ready grammar tokens chart consumed) (present : chart.item? place = some item)
    (found : grammar.production? id = some production)
    (awaited : item.next? grammar = some production.lhs) :
    chart.Holds place.column id 0 place.column := by
  have predicts := (ready.settled (ready.column_le present) rfl present).predicts awaited
    (consistent.nonterminal found)
  have inside := Chart.column_lt_size present
  have short := ready.coherent.short
  have originsFit := fits.origins
  exact ready.coherent.holds_of_hasKey consistent fits (by decide) (by omega)
    (predicts.started id (consistent.listed.mpr ⟨production, found, rfl⟩))

end Ready

/-- The item that a column holds, with the symbols that it still has to match. -/
theorem Chart.Holds.exists_item {column dot origin : Nat} {id : ProductionId}
    {production : Production} {symbol : SymbolId} {rest : List SymbolId}
    (held : chart.Holds column id dot origin) (found : grammar.production? id = some production)
    (remaining : production.rhs.drop dot = symbol :: rest) :
    ∃ place item, place.column = column ∧ chart.item? place = some item ∧
      item.production = id ∧ item.dot = dot ∧ item.origin = origin ∧
      item.next? grammar = some symbol ∧ production.rhs.drop (dot + 1) = rest := by
  obtain ⟨place, item, inColumn, present, rfl, rfl, rfl⟩ := held
  refine ⟨place, item, inColumn, present, rfl, rfl, rfl,
    next?_eq_some_iff.mpr ⟨production, found, ?_⟩, ?_⟩
  · rw [← List.head?_drop, remaining]
    rfl
  · rw [← List.tail_drop, remaining]
    rfl

namespace Ready

variable {consumed : Nat}

/-- An item moves over whatever the symbols after its dot derive. -/
theorem holds_of_forest (consistent : grammar.Consistent) (fits : Fits grammar tokens)
    (ready : Ready grammar tokens chart consumed) {form : List SymbolId} {trees : List Tree}
    {covered : List Token} (forest : grammar.table.Forest form trees covered)
    {column dot origin : Nat} {id : ProductionId} {production : Production} {rest : List SymbolId}
    {after : List Token} (held : chart.Holds column id dot origin)
    (found : grammar.production? id = some production)
    (remaining : production.rhs.drop dot = form ++ rest)
    (input : tokens.drop column = covered ++ after) (reached : column + covered.length ≤ consumed) :
    chart.Holds (column + covered.length) id (dot + form.length) origin := by
  induction forest generalizing column dot origin id production rest after with
  | nil => exact held
  | @leaf symbol symbols token trees covered spelled others inductionHypothesis =>
      obtain ⟨place, item, inColumn, present, rfl, rfl, rfl, awaited, fewer⟩ :=
        held.exists_item found remaining
      have read : tokens[column]? = some token := by
        rw [← List.head?_drop, input]
        rfl
      have inputAfter : tokens.drop (column + 1) = covered ++ after := by
        rw [← List.tail_drop, input]
        rfl
      rw [List.length_cons] at reached
      have moved := ready.coherent.holds_of_nextKey consistent fits present awaited
        (ready.scanned (by omega) read inColumn present spelled awaited)
      have further := inductionHypothesis moved found fewer inputAfter (by omega)
      rw [List.length_cons, List.length_cons, Nat.add_comm covered.length,
        Nat.add_comm symbols.length, ← Nat.add_assoc, ← Nat.add_assoc]
      exact further
  | @node innerId lhs rhs symbols children trees covered others rule inner _ innerHypothesis
      othersHypothesis =>
      obtain ⟨place, item, rfl, present, rfl, rfl, rfl, awaited, fewer⟩ :=
        held.exists_item found remaining
      obtain ⟨innerProduction, innerFound, rfl, rfl⟩ := Grammar.production?_of_rule? rule
      rw [List.length_append] at reached
      rw [List.append_assoc] at input
      have started := ready.holds_of_next? consistent fits present innerFound awaited
      have matched := innerHypothesis started innerFound (List.append_nil _).symm input (by omega)
      rw [Nat.zero_add] at matched
      obtain ⟨child, innerItem, childColumn, innerPresent, rfl, complete, origin⟩ := matched
      have ended : innerItem.next? grammar = none := by
        simp [Item.next?, Grammar.symbolAt?, innerFound, complete]
      obtain ⟨_, value, _, reduced⟩ := Engine.completes_of_next?_eq_none
        (ready.coherent.reads consistent innerPresent) ended
      have moved := ready.coherent.holds_of_nextKey consistent fits present awaited
        (ready.hasKey_of_completes consistent present innerPresent origin.symm awaited
          ⟨⟨innerProduction, innerFound, rfl⟩, reduced⟩)
      rw [childColumn] at moved
      have inputAfter : tokens.drop (place.column + covered.length) = others ++ after := by
        rw [← List.drop_drop, input, List.drop_left]
      have further := othersHypothesis moved found fewer inputAfter (by omega)
      rw [List.length_append, List.length_cons, Nat.add_comm symbols.length, ← Nat.add_assoc,
        ← Nat.add_assoc]
      exact further

/-- Where a symbol can come next, some item expects it. -/
theorem awaits_of_begins (consistent : grammar.Consistent) (fits : Fits grammar tokens)
    (ready : Ready grammar tokens chart consumed) {expected : SymbolId} {form : List SymbolId}
    {covered : List Token} (begins : grammar.table.Begins expected form covered)
    {column dot origin : Nat} {id : ProductionId} {production : Production} {rest : List SymbolId}
    {after : List Token} (held : chart.Holds column id dot origin)
    (found : grammar.production? id = some production)
    (remaining : production.rhs.drop dot = form ++ rest)
    (input : tokens.drop column = covered ++ after) (reached : column + covered.length ≤ consumed) :
    chart.Awaits grammar (column + covered.length) expected := by
  induction begins generalizing column dot origin id production rest after with
  | here =>
      obtain ⟨place, item, inColumn, present, _, _, _, awaited, _⟩ :=
        held.exists_item found remaining
      exact ⟨place, item, inColumn, present, awaited⟩
  | into rule inner inductionHypothesis =>
      obtain ⟨place, item, rfl, present, _, _, _, awaited, _⟩ := held.exists_item found remaining
      obtain ⟨innerProduction, innerFound, rfl, rfl⟩ := Grammar.production?_of_rule? rule
      have started := ready.holds_of_next? consistent fits present innerFound awaited
      exact inductionHypothesis started innerFound (List.append_nil _).symm input reached
  | @past first symbols tree covered others matched _ inductionHypothesis =>
      rw [List.length_append] at reached ⊢
      rw [List.append_assoc] at input
      have moved := ready.holds_of_forest consistent fits matched held found
        (List.append_assoc [first] symbols rest ▸ remaining) input (by omega)
      have fewer : production.rhs.drop (dot + [first].length) = symbols ++ rest := by
        rw [← List.drop_drop, remaining]
        rfl
      have inputAfter : tokens.drop (column + covered.length) = others ++ after := by
        rw [← List.drop_drop, input, List.drop_left]
      rw [← Nat.add_assoc]
      exact inductionHypothesis moved found fewer inputAfter (by omega)

end Ready

/-- What an item can go on with, a parse can go on with. The item's reasons lead back to the start
production, and on the way every symbol before a dot is matched by its trees. -/
theorem Coherent.begins_of_item {place : ItemRef} {item : Item} {start production : Production}
    {expected : SymbolId} {covered : List Token} (consistent : grammar.Consistent)
    (coherent : Coherent grammar tokens chart)
    (startFound : grammar.production? grammar.startProduction = some start)
    (present : chart.item? place = some item)
    (found : grammar.production? item.production = some production)
    (begins : grammar.table.Begins expected (production.rhs.drop item.dot) covered) :
    grammar.table.Begins expected start.rhs (tokens.take place.column ++ covered) := by
  induction place using ItemRef.before_wellFounded.induction
    generalizing item production covered with
  | _ place inductionHypothesis =>
      cases coherent.founded present with
      | seed first =>
          obtain rfl := Option.some.inj (startFound.symm.trans found)
          subst first
          exact begins
      | @predicted predictor waiting id _ earlier sameColumn before innerFound awaited =>
          obtain rfl := Option.some.inj (innerFound.symm.trans found)
          obtain ⟨outer, outerFound, _⟩ := next?_eq_some_iff.mp awaited
          rw [← sameColumn]
          refine inductionHypothesis predictor before earlier outerFound ?_
          rw [drop_of_next? outerFound awaited]
          exact .into (Grammar.rule?_of_production? innerFound) begins
      | @scanned source earlierItem _ token symbol earlier nextColumn read earlierFound spelled
          awaited =>
          obtain rfl := Option.some.inj (earlierFound.symm.trans found)
          rw [nextColumn, ← between_zero, ← between_succ (Nat.zero_le _) read, between_zero,
            List.append_assoc]
          refine inductionHypothesis source (.inl (by omega)) earlier earlierFound ?_
          rw [drop_of_next? earlierFound awaited]
          exact .past (.single_leaf spelled) begins
      | @completed parent child earlierItem inner _ innerProduction value earlier innerPresent
          parentColumn childColumn before innerBefore earlierFound innerFound awaited reduced =>
          obtain rfl := Option.some.inj (earlierFound.symm.trans found)
          obtain ⟨same, trees, sameFound, _, innerOrigin, forest, held⟩ :=
            coherent.reads consistent innerPresent
          obtain rfl := Option.some.inj (innerFound.symm.trans sameFound)
          obtain ⟨complete, _⟩ := reduced_of_payload held reduced
          rw [complete, List.take_length, childColumn] at forest
          rw [childColumn] at innerOrigin
          rw [← between_zero, ← between_append (Nat.zero_le _) innerOrigin, between_zero,
            List.append_assoc, ← parentColumn]
          refine inductionHypothesis parent before earlier earlierFound ?_
          rw [drop_of_next? earlierFound awaited, parentColumn]
          exact .past (.single_node (Grammar.rule?_of_production? innerFound) forest) begins

/-- A column after the first begins with an item that was scanned. -/
theorem Coherent.awaits_of_size {column : Nat} (coherent : Coherent grammar tokens chart)
    (reached : column + 1 < chart.size) :
    ∃ token symbol, tokens[column]? = some token ∧ grammar.terminal? token.name = some symbol ∧
      chart.Awaits grammar column symbol := by
  obtain ⟨item, present⟩ := Chart.exists_item_of_lt_width (coherent.populated reached)
  have notBefore {other : ItemRef} (sameColumn : other.column = column + 1) :
      ¬ other.Before ⟨column + 1, 0⟩ := by
    intro before
    rcases before with earlier | ⟨_, earlier⟩
    · change other.column < column + 1 at earlier
      omega
    · exact absurd earlier (Nat.not_lt_zero _)
  cases coherent.founded present with
  | seed first => cases first
  | predicted _ sameColumn before _ _ => exact absurd before (notBefore sameColumn)
  | @scanned source earlierItem _ token symbol earlier nextColumn read _ spelled awaited =>
      have sourceColumn : source.column = column := (Nat.succ.inj nextColumn).symm
      rw [sourceColumn] at read
      exact ⟨token, symbol, read, spelled, source, earlierItem, sourceColumn, earlier, awaited⟩
  | completed _ _ _ childColumn _ innerBefore _ _ _ _ =>
      exact absurd innerBefore (notBefore childColumn)

section Outcomes

variable {consumed : Nat} {start : Production}

/-- An item of a column expects a symbol exactly if it can follow the tokens up to there. -/
theorem Ready.awaits_iff (consistent : grammar.Consistent) (fits : Fits grammar tokens)
    (ready : Ready grammar tokens chart consumed)
    (startFound : grammar.production? grammar.startProduction = some start) {column : Nat}
    (reached : column ≤ consumed) {symbol : SymbolId} :
    chart.Awaits grammar column symbol ↔
      grammar.table.Begins symbol start.rhs (tokens.take column) := by
  constructor
  · intro awaits
    obtain ⟨place, item, rfl, present, awaited⟩ := awaits
    obtain ⟨production, found, _⟩ := next?_eq_some_iff.mp awaited
    rw [← List.append_nil (tokens.take place.column)]
    refine ready.coherent.begins_of_item consistent startFound present found ?_
    rw [drop_of_next? found awaited]
    exact .here
  · intro begins
    have length : (tokens.take column).length = column :=
      List.length_take_of_le (Nat.le_trans reached ready.consumed_le)
    have awaits := ready.awaits_of_begins consistent fits begins ready.coherent.holds_seed startFound
      (List.append_nil _).symm (List.take_append_drop column tokens).symm (by omega)
    rwa [length, Nat.zero_add] at awaits

/-- An accepted value is that of a forest of the start production. -/
theorem Ready.forest_of_accepted? {value : Value} (consistent : grammar.Consistent)
    (fits : Fits grammar tokens) (ready : Ready grammar tokens chart consumed)
    (startFound : grammar.production? grammar.startProduction = some start)
    (accepted : Engine.accepted? grammar chart = some value) :
    ∃ trees, grammar.table.Forest start.rhs trees (tokens.take consumed) ∧
      value = start.reduce (Tree.values grammar.reducer? trees) := by
  unfold Engine.accepted? at accepted
  obtain ⟨item, foundItem, reduced⟩ := Option.bind_eq_some_iff.mp accepted
  obtain ⟨place, foundPlace, present⟩ := Option.bind_eq_some_iff.mp foundItem
  obtain ⟨inColumn, same, samePresent, sameKey⟩ := (ready.coherent.keyed _ _ _).mp foundPlace
  obtain rfl := Option.some.inj (present.symm.trans samePresent)
  obtain ⟨production, trees, found, bounded, reached, forest, held⟩ :=
    ready.coherent.reads consistent present
  have originsFit := fits.origins
  have short := ready.coherent.short
  have inside := Chart.column_lt_size present
  have lastColumn : place.column = consumed := inColumn.trans ready.size_sub_one
  obtain ⟨sameProduction, _, sameOrigin⟩ := ItemKey.mk.inj sameKey
  have atStart : item.origin = 0 := word_inj (by omega) (by decide) sameOrigin
  obtain ⟨complete, valued⟩ := reduced_of_payload held reduced
  rw [sameProduction, startFound] at found
  obtain rfl := Option.some.inj found
  rw [complete, List.take_length, atStart, lastColumn, between_zero] at forest
  exact ⟨trees, forest, valued⟩

/-- What the start production matches is accepted. -/
theorem Ready.isSome_accepted? {trees : List Tree} (consistent : grammar.Consistent)
    (fits : Fits grammar tokens) (ready : Ready grammar tokens chart consumed)
    (startFound : grammar.production? grammar.startProduction = some start)
    (forest : grammar.table.Forest start.rhs trees (tokens.take consumed)) :
    (Engine.accepted? grammar chart).isSome = true := by
  have length : (tokens.take consumed).length = consumed :=
    List.length_take_of_le ready.consumed_le
  have matched := ready.holds_of_forest consistent fits forest ready.coherent.holds_seed startFound
    (List.append_nil _).symm (List.take_append_drop consumed tokens).symm (by omega)
  rw [length, Nat.zero_add, Nat.zero_add] at matched
  obtain ⟨place, item, inColumn, present, sameProduction, complete, atStart⟩ := matched
  have key : item.key = Engine.acceptKey grammar := by
    simp [Item.key, Engine.acceptKey, sameProduction, complete, atStart, startFound]
  have lastColumn : place.column = chart.size - 1 := inColumn.trans ready.size_sub_one.symm
  have foundPlace : chart.find? (chart.size - 1) (Engine.acceptKey grammar) = some place :=
    (ready.coherent.keyed _ _ _).mpr ⟨lastColumn, item, present, key⟩
  have ended : item.next? grammar = none := by
    simp [Item.next?, Grammar.symbolAt?, sameProduction, startFound, complete]
  obtain ⟨_, value, _, reduced⟩ := Engine.completes_of_next?_eq_none
    (ready.coherent.reads consistent present) ended
  simp [Engine.accepted?, foundPlace, present, reduced]

end Outcomes

end EarleyChart
