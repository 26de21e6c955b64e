import EarleyChart.Parse.Run
import EarleyChart.Proofs.Growth
import EarleyChart.Proofs.Numbering

/-!
Contract: the one invariant of charts.

`Founded` is the reason why an item stands at its place: it starts the parse, or earlier items
predict it, scan to it or complete to it, and its values come from theirs. A chart is `Coherent` if
its keys fit its items, its columns record the input and every item is founded.

Since reasons only point to earlier places, what a founded item inherits from its reasons holds of
every item. `Coherent.reads` is of that kind: an item has trees for the symbols before its dot, over
the tokens between its origin and its column, and holds their values.
-/

namespace EarleyChart

/-- The tokens from one position up to another. -/
def between (tokens : List Token) (first last : Nat) : List Token :=
  (tokens.take last).drop first

@[simp] theorem between_self (tokens : List Token) (position : Nat) :
    between tokens position position = [] := by
  simp [between]

theorem between_append {tokens : List Token} {first middle last : Nat} (before : first ≤ middle)
    (after : middle ≤ last) :
    between tokens first middle ++ between tokens middle last = between tokens first last := by
  have front : tokens.take middle = (tokens.take last).take middle := by
    rw [List.take_take, Nat.min_eq_left after]
  have back : (tokens.take last).drop middle =
      ((tokens.take last).drop first).drop (middle - first) := by
    rw [List.drop_drop, Nat.add_sub_cancel' before]
  unfold between
  rw [front, List.drop_take, back, List.take_append_drop]

theorem between_succ {tokens : List Token} {first last : Nat} {token : Token} (before : first ≤ last)
    (next : tokens[last]? = some token) :
    between tokens first last ++ [token] = between tokens first (last + 1) := by
  obtain ⟨inside, rfl⟩ := List.getElem?_eq_some_iff.mp next
  unfold between
  rw [← List.take_append_getElem inside, List.drop_append_of_le_length (by simp; omega)]

theorem between_zero (tokens : List Token) (last : Nat) :
    between tokens 0 last = tokens.take last :=
  rfl

/-- The token that leads into a column. -/
def leadingToken (tokens : List Token) : Nat → Option Token
  | 0 => none
  | column + 1 => tokens[column]?

/-- The item with its dot moved over one more symbol. -/
def Item.advanced (item : Item) (production : Production) (value : Value)
    (provenance : Provenance) : Item :=
  { item with
    dot := item.dot + 1
    payload := Engine.payloadAt production (item.dot + 1) (item.children ++ [value])
    provenance }

theorem Item.key_advanced (item : Item) (production : Production) (value : Value)
    (provenance : Provenance) :
    (item.advanced production value provenance).key =
      { item.key with dot := item.key.dot + 1 } := by
  simp [Item.advanced, Item.key]

/-- Why an item may stand at a place of a chart. -/
inductive Founded (grammar : Grammar) (tokens : List Token) (chart : Chart) (place : ItemRef) :
    Item → Prop where
  | seed (first : place = ⟨0, 0⟩) : Founded grammar tokens chart place grammar.seed
  | predicted {predictor : ItemRef} {waiting : Item} {id : ProductionId} {production : Production}
      (present : chart.item? predictor = some waiting)
      (sameColumn : predictor.column = place.column)
      (before : predictor.Before place)
      (found : grammar.production? id = some production)
      (awaited : waiting.next? grammar = some production.lhs) :
      Founded grammar tokens chart place
        { production := id, dot := 0, origin := place.column,
          payload := Engine.payloadAt production 0 [], provenance := .predicted predictor }
  | scanned {source : ItemRef} {item : Item} {production : Production} {token : Token}
      {symbol : SymbolId}
      (present : chart.item? source = some item)
      (nextColumn : place.column = source.column + 1)
      (read : tokens[source.column]? = some token)
      (found : grammar.production? item.production = some production)
      (spelled : grammar.terminal? token.name = some symbol)
      (awaited : item.next? grammar = some symbol) :
      Founded grammar tokens chart place
        (item.advanced production (.token token) (.scanned source))
  | completed {parent child : ItemRef} {item inner : Item} {production innerProduction : Production}
      {value : Value}
      (present : chart.item? parent = some item)
      (innerPresent : chart.item? child = some inner)
      (parentColumn : parent.column = inner.origin)
      (childColumn : child.column = place.column)
      (before : parent.Before place)
      (innerBefore : child.Before place)
      (found : grammar.production? item.production = some production)
      (innerFound : grammar.production? inner.production = some innerProduction)
      (awaited : item.next? grammar = some innerProduction.lhs)
      (reduced : inner.value? = some value) :
      Founded grammar tokens chart place
        (item.advanced production value (.completed parent child))

/-- An item has trees for the symbols before its dot and holds their values. -/
def Item.Reads (grammar : Grammar) (tokens : List Token) (column : Nat) (item : Item) : Prop :=
  ∃ production trees, grammar.production? item.production = some production ∧
    item.dot ≤ production.rhs.length ∧ item.origin ≤ column ∧
    grammar.table.Forest (production.rhs.take item.dot) trees
      (between tokens item.origin column) ∧
    item.payload = Engine.payloadAt production item.dot (Tree.values grammar.reducer? trees)

/-- A chart whose keys, tokens and items belong together. -/
structure Coherent (grammar : Grammar) (tokens : List Token) (chart : Chart) : Prop where
  keyed : chart.Keyed
  seeded : chart.item? ⟨0, 0⟩ = some grammar.seed
  short : chart.size ≤ tokens.length + 1
  populated : ∀ {column}, column < chart.size → 0 < chart.width column
  recorded : ∀ {column}, column < chart.size → chart.token? column = leadingToken tokens column
  founded : ∀ {place item}, chart.item? place = some item →
    Founded grammar tokens chart place item

section Reading

variable {grammar : Grammar} {tokens : List Token} {column : Nat} {item : Item}

theorem next?_eq_some_iff {symbol : SymbolId} :
    item.next? grammar = some symbol ↔
      ∃ production, grammar.production? item.production = some production ∧
        production.rhs[item.dot]? = some symbol :=
  Option.bind_eq_some_iff

/-- The symbol after the dot, in the right-hand side of the item's production. -/
theorem rhs_of_next? {production : Production} {symbol : SymbolId}
    (found : grammar.production? item.production = some production)
    (awaited : item.next? grammar = some symbol) : production.rhs[item.dot]? = some symbol := by
  obtain ⟨same, sameFound, symbolAt⟩ := next?_eq_some_iff.mp awaited
  rwa [Option.some.inj (found.symm.trans sameFound)]

/-- An item with a symbol after its dot holds the values of its trees. -/
theorem children_of_payload {production : Production} {values : List Value} {symbol : SymbolId}
    (held : item.payload = Engine.payloadAt production item.dot values)
    (awaited : production.rhs[item.dot]? = some symbol) : item.children = values := by
  obtain ⟨inside, _⟩ := List.getElem?_eq_some_iff.mp awaited
  rw [Item.children, held, Engine.payloadAt, if_neg (Nat.ne_of_lt inside)]

/-- An item with a reduced value has its dot at the end. -/
theorem reduced_of_payload {production : Production} {values : List Value} {value : Value}
    (held : item.payload = Engine.payloadAt production item.dot values)
    (reduced : item.value? = some value) :
    item.dot = production.rhs.length ∧ value = production.reduce values := by
  rw [Item.value?, held, Engine.payloadAt] at reduced
  split at reduced
  next matched =>
    split at matched
    next complete =>
      cases matched
      cases reduced
      exact ⟨complete, rfl⟩
    next => cases matched
  next => cases reduced

/-- Moving the dot over a tree of the next symbol. -/
theorem Item.Reads.advance {production : Production} {symbol : SymbolId} {tree : Tree}
    {provenance : Provenance} {last : Nat} (reads : item.Reads grammar tokens column)
    (found : grammar.production? item.production = some production)
    (awaited : item.next? grammar = some symbol) (after : column ≤ last)
    (forest : grammar.table.Forest [symbol] [tree] (between tokens column last)) :
    (item.advanced production (tree.value grammar.reducer?) provenance).Reads grammar tokens last := by
  obtain ⟨production', trees, found', _, origin, matched, held⟩ := reads
  obtain rfl := Option.some.inj (found.symm.trans found')
  have awaited := rhs_of_next? found awaited
  obtain ⟨inside, symbolAt⟩ := List.getElem?_eq_some_iff.mp awaited
  refine ⟨production, trees ++ [tree], found, inside, Nat.le_trans origin after, ?_, ?_⟩
  · have extended := matched.append forest
    rw [between_append origin after, ← symbolAt, List.take_append_getElem inside] at extended
    exact extended
  · rw [Tree.values_append, ← children_of_payload held awaited]
    rfl

/-- An item reads its trees if the items it is founded on do. -/
theorem Founded.reads {chart : Chart} {place : ItemRef} (consistent : grammar.Consistent)
    (earlier : ∀ {other found}, other.Before place → chart.item? other = some found →
      found.Reads grammar tokens other.column)
    (founded : Founded grammar tokens chart place item) :
    item.Reads grammar tokens place.column := by
  cases founded with
  | seed first =>
      subst first
      obtain ⟨production, found⟩ := consistent.startProduction
      refine ⟨production, [], found, Nat.zero_le _, Nat.le_refl _, ?_, ?_⟩
      · simpa [Grammar.seed] using RuleTable.Forest.nil
      · simp [Grammar.seed, found, Tree.values]
  | predicted present sameColumn before found awaited =>
      refine ⟨_, [], found, Nat.zero_le _, Nat.le_refl _, ?_, rfl⟩
      simpa using RuleTable.Forest.nil
  | @scanned source earlierItem production token symbol present nextColumn read found spelled
      awaited =>
      have before : source.Before place := .inl (by omega)
      have forest : grammar.table.Forest [symbol] [.leaf token]
          (between tokens source.column (source.column + 1)) := by
        rw [← between_succ (Nat.le_refl _) read, between_self]
        exact .single_leaf spelled
      rw [nextColumn]
      exact (earlier before present).advance found awaited (Nat.le_succ _) forest
  | @completed parent child earlierItem inner production innerProduction value present innerPresent
      parentColumn childColumn before innerBefore found innerFound awaited reduced =>
      obtain ⟨innerProduction', trees, innerFound', _, innerOrigin, forest, held⟩ :=
        earlier innerBefore innerPresent
      obtain rfl := Option.some.inj (innerFound.symm.trans innerFound')
      obtain ⟨complete, rfl⟩ := reduced_of_payload held reduced
      rw [complete, List.take_length, childColumn] at forest
      rw [childColumn] at innerOrigin
      have valued : innerProduction.reduce (Tree.values grammar.reducer? trees) =
          (Tree.node inner.production trees).value grammar.reducer? := by
        simp [Tree.value, Grammar.reducer?, innerFound, Production.reduce]
      rw [valued]
      refine (earlier before present).advance found awaited (parentColumn ▸ innerOrigin) ?_
      rw [parentColumn]
      exact .single_node (Grammar.rule?_of_production? innerFound) forest

theorem Coherent.reads {chart : Chart} {place : ItemRef} (consistent : grammar.Consistent)
    (coherent : Coherent grammar tokens chart) (present : chart.item? place = some item) :
    item.Reads grammar tokens place.column := by
  induction place using ItemRef.before_wellFounded.induction generalizing item with
  | _ place inductionHypothesis =>
      exact (coherent.founded present).reads consistent
        fun before found => inductionHypothesis _ before found

theorem Coherent.origin_le {chart : Chart} {place : ItemRef} (consistent : grammar.Consistent)
    (coherent : Coherent grammar tokens chart) (present : chart.item? place = some item) :
    item.origin ≤ place.column := by
  obtain ⟨_, _, _, _, origin, _, _⟩ := coherent.reads consistent present
  exact origin

end Reading

/-- Items are only added, and only to one column. -/
structure Chart.Grows (column : Nat) (before after : Chart) : Prop where
  items : ∀ {place item}, before.item? place = some item → after.item? place = some item
  elsewhere : ∀ {place}, place.column ≠ column → after.item? place = before.item? place
  size_le : before.size ≤ after.size
  le_size : after.size ≤ max before.size (column + 1)

namespace Chart.Grows

variable {column : Nat} {first second third : Chart}

theorem refl (chart : Chart) : chart.Grows column chart where
  items present := present
  elsewhere _ := rfl
  size_le := Nat.le_refl _
  le_size := Nat.le_max_left _ _

theorem trans (former : first.Grows column second) (latter : second.Grows column third) :
    first.Grows column third where
  items present := latter.items (former.items present)
  elsewhere different := (latter.elsewhere different).trans (former.elsewhere different)
  size_le := Nat.le_trans former.size_le latter.size_le
  le_size := by
    have formerSize := former.le_size
    have latterSize := latter.le_size
    omega

theorem add {item : Item} {token : Option Token} (reached : column ≤ first.size) :
    first.Grows column (first.add column item token) where
  items := by
    intro place present found
    rw [Chart.item?_add reached, if_neg]
    · exact found
    · intro same
      subst same
      exact Nat.lt_irrefl _ (Chart.index_lt_width_iff.mpr ⟨present, found⟩)
  elsewhere := by
    intro place different
    rw [Chart.item?_add reached, if_neg]
    intro same
    subst same
    exact different rfl
  size_le := by
    rw [Chart.size_add reached]
    omega
  le_size := by rw [Chart.size_add reached]

theorem width_le (grows : first.Grows column second) (other : Nat) :
    first.width other ≤ second.width other := by
  by_contra shrinks
  obtain ⟨item, present⟩ := Chart.exists_item_of_lt_width (Nat.lt_of_not_le shrinks)
  exact Nat.lt_irrefl _ (Chart.index_lt_width_iff.mpr ⟨item, grows.items present⟩)

/-- Below the former width a column keeps its items. -/
theorem item?_eq (grows : first.Grows column second) {place : ItemRef}
    (below : place.index < first.width place.column) : second.item? place = first.item? place := by
  obtain ⟨item, present⟩ := Chart.index_lt_width_iff.mp below
  rw [present, grows.items present]

end Chart.Grows

variable {grammar : Grammar} {tokens : List Token} {chart : Chart}

theorem Founded.mono {after : Chart} {place : ItemRef} {item : Item}
    (kept : ∀ {other found}, chart.item? other = some found → after.item? other = some found)
    (founded : Founded grammar tokens chart place item) :
    Founded grammar tokens after place item := by
  cases founded with
  | seed first => exact .seed first
  | predicted present sameColumn before found awaited =>
      exact .predicted (kept present) sameColumn before found awaited
  | scanned present nextColumn read found spelled awaited =>
      exact .scanned (kept present) nextColumn read found spelled awaited
  | completed present innerPresent parentColumn childColumn before innerBefore found innerFound
      awaited reduced =>
      exact .completed (kept present) (kept innerPresent) parentColumn childColumn before
        innerBefore found innerFound awaited reduced

/-- Addition of a founded item with a fresh key, into the last column or the next one. -/
theorem Coherent.add {column : Nat} {item : Item} {token : Option Token}
    (coherent : Coherent grammar tokens chart) (reached : column ≤ chart.size)
    (fresh : chart.find? column item.key = none)
    (founded : Founded grammar tokens chart ⟨column, chart.width column⟩ item)
    (leads : column = chart.size → column ≤ tokens.length ∧ token = leadingToken tokens column) :
    Coherent grammar tokens (chart.add column item token) where
  keyed := coherent.keyed.add reached fresh
  seeded := (Chart.Grows.add reached).items coherent.seeded
  short := by
    have short := coherent.short
    rw [Chart.size_add reached]
    by_cases last : column = chart.size
    · have inside := (leads last).1
      omega
    · omega
  populated := by
    intro index inside
    rw [Chart.size_add reached] at inside
    by_cases same : index = column
    · subst same
      have added : (chart.add index item token).item? ⟨index, chart.width index⟩ = some item := by
        rw [Chart.item?_add reached, if_pos rfl]
      have below := Chart.index_lt_width_iff.mpr ⟨item, added⟩
      exact Nat.lt_of_le_of_lt (Nat.zero_le _) below
    · have formerly : 0 < chart.width index := coherent.populated (by omega)
      exact Nat.lt_of_lt_of_le formerly ((Chart.Grows.add reached).width_le index)
  recorded := by
    intro index inside
    rw [Chart.size_add reached] at inside
    rw [Chart.token?_add reached]
    split
    next isLast =>
      obtain ⟨isSize, rfl⟩ := isLast
      exact (leads isSize).2
    next notLast => exact coherent.recorded (by omega)
  founded := by
    intro place found present
    refine Founded.mono (fun earlier => (Chart.Grows.add reached).items earlier) ?_
    rw [Chart.item?_add reached] at present
    split at present
    next isNew =>
      obtain rfl := Option.some.inj present
      rw [isNew]
      exact founded
    next => exact coherent.founded present

theorem coherent_seeded (grammar : Grammar) (tokens : List Token) :
    Coherent grammar tokens (Chart.seeded grammar.seed) where
  keyed := Chart.keyed_seeded grammar.seed
  seeded := rfl
  short := by simp [Chart.seeded, Chart.size]
  populated := by
    intro column inside
    obtain rfl : column = 0 := by
      simpa [Chart.seeded, Chart.size] using inside
    exact Nat.zero_lt_one
  recorded := by
    intro column inside
    obtain rfl : column = 0 := by
      simpa [Chart.seeded, Chart.size] using inside
    rfl
  founded := by
    intro place item present
    obtain ⟨rfl, rfl⟩ := Chart.eq_of_item?_seeded present
    exact .seed rfl

end EarleyChart
