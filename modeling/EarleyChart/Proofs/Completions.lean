import Mathlib.Data.Finset.Prod
import EarleyChart.Proofs.Ambiguity

/-!
Contract: every completion is tried once and none is lost.

A complete item meets the items that wait for it in the column where it began. In a column that is
still growing either of the two can come first, and then the later one finds the earlier. In the
chart that a parse leaves `Chart.completions` are the pairs that could meet and `Chart.completed` the
items that came out of a meeting. No pair goes without its item, and the pairs beyond those items are
just what the parse has counted (`Declaration.run_tries_each_completion_once`).

Moves over tokens play no part in the count: an item that has moved over a token has no other way to
be there (`Coherent.provenance_of_scanned`).
-/

namespace EarleyChart

/-- A dot has moved over a complete item. -/
def Provenance.isCompleted : Provenance → Bool
  | completed _ _ => true
  | scanned _ => false
  | seed => false
  | predicted _ => false

theorem Provenance.isMove_of_isCompleted {move : Provenance} (moved : move.isCompleted = true) :
    move.IsMove := by
  cases move with
  | completed => trivial
  | scanned => cases moved
  | seed => cases moved
  | predicted => cases moved

namespace Chart

/-- The places that hold items. -/
def places (chart : Chart) : Finset ItemRef :=
  ((List.range chart.size).flatMap fun column =>
    (List.range (chart.width column)).map (ItemRef.mk column)).toFinset

/-- The provenance of the item at a place. -/
def provenanceAt (chart : Chart) (place : ItemRef) : Provenance :=
  ((chart.item? place).map Item.provenance).getD .seed

/-- The places of the items whose dot has moved over a complete item. -/
def completed (chart : Chart) : Finset ItemRef :=
  chart.places.filter fun place => (chart.provenanceAt place).isCompleted

/-- Whether the item at `child` has its dot at the end and began in the column of `parent`, where the
item expects the left-hand side of the production. -/
def isCompletion (grammar : Grammar) (chart : Chart) (parent child : ItemRef) : Bool :=
  (chart.item? parent).any fun item => (chart.item? child).any fun inner =>
    (grammar.production? inner.production).any fun production =>
      inner.dot = production.rhs.length && inner.origin = parent.column &&
        item.next? grammar = some production.lhs

/-- The pairs of an item and a complete item that it waits for. -/
def completions (grammar : Grammar) (chart : Chart) : Finset (ItemRef × ItemRef) :=
  (chart.places ×ˢ chart.places).filter fun pair => chart.isCompletion grammar pair.1 pair.2

variable {grammar : Grammar} {chart : Chart} {place parent child : ItemRef}

theorem mem_places : place ∈ chart.places ↔ ∃ item, chart.item? place = some item := by
  simp only [places, List.mem_toFinset, List.mem_flatMap, List.mem_range, List.mem_map]
  constructor
  · intro listed
    obtain ⟨column, _, index, below, rfl⟩ := listed
    exact exists_item_of_lt_width below
  · intro present
    obtain ⟨item, found⟩ := present
    exact ⟨place.column, column_lt_size found, place.index,
      index_lt_width_iff.mpr ⟨item, found⟩, rfl⟩

theorem provenanceAt_of_item? {item : Item} (present : chart.item? place = some item) :
    chart.provenanceAt place = item.provenance := by
  rw [provenanceAt, present]
  rfl

theorem mem_completed : place ∈ chart.completed ↔
    ∃ item, chart.item? place = some item ∧ item.provenance.isCompleted = true := by
  rw [completed, Finset.mem_filter, mem_places]
  constructor
  · intro parts
    obtain ⟨⟨item, present⟩, moved⟩ := parts
    rw [provenanceAt_of_item? present] at moved
    exact ⟨item, present, moved⟩
  · intro parts
    obtain ⟨item, present, moved⟩ := parts
    rw [provenanceAt_of_item? present]
    exact ⟨⟨item, present⟩, moved⟩

theorem mem_completions : (parent, child) ∈ chart.completions grammar ↔
    ∃ item inner production, chart.item? parent = some item ∧ chart.item? child = some inner ∧
      grammar.production? inner.production = some production ∧
      inner.dot = production.rhs.length ∧ inner.origin = parent.column ∧
      item.next? grammar = some production.lhs := by
  simp only [completions, Finset.mem_filter, Finset.mem_product, mem_places, isCompletion,
    Option.any_eq_true, Bool.and_eq_true, decide_eq_true_eq]
  constructor
  · intro parts
    obtain ⟨_, item, present, inner, innerPresent, production, found, ⟨ended, origin⟩, awaited⟩ :=
      parts
    exact ⟨item, inner, production, present, innerPresent, found, ended, origin, awaited⟩
  · intro parts
    obtain ⟨item, inner, production, present, innerPresent, found, ended, origin, awaited⟩ := parts
    exact ⟨⟨⟨item, present⟩, inner, innerPresent⟩, item, present, inner, innerPresent, production,
      found, ⟨ended, origin⟩, awaited⟩

end Chart

variable {grammar : Grammar} {tokens : List Token} {chart : Chart} {place parent child : ItemRef}
  {item : Item} {consumed : Nat}

/-- In a coherent chart the items with their dot at the end are those that hold a reduced value. -/
theorem Coherent.joins_iff_mem_completions (consistent : grammar.Consistent)
    (coherent : Coherent grammar tokens chart) :
    chart.Joins grammar parent child ↔ (parent, child) ∈ chart.completions grammar := by
  rw [Chart.mem_completions]
  constructor
  · intro joins
    obtain ⟨item, inner, symbol, value, present, innerPresent, inColumn, awaited, completes⟩ := joins
    obtain ⟨production, found, rfl⟩ := completes.lhs
    have ended := coherent.dot_of_completes consistent innerPresent completes found
    exact ⟨item, inner, production, present, innerPresent, found, ended, inColumn.symm, awaited⟩
  · intro parts
    obtain ⟨item, inner, production, present, innerPresent, found, ended, origin, awaited⟩ := parts
    have complete : inner.next? grammar = none := by
      simp [Item.next?, Grammar.symbolAt?, found, ended]
    obtain ⟨_, value, _, reduced⟩ := Engine.completes_of_next?_eq_none
      (coherent.reads consistent innerPresent) complete
    exact ⟨item, inner, production.lhs, value, present, innerPresent, origin.symm, awaited,
      ⟨production, found, rfl⟩, reduced⟩

/-- The symbol before a dot is the one that the dot has moved over. -/
theorem Item.Moves.symbol_unique {left right : Item} {first second : SymbolId}
    (moves : left.Moves grammar first item) (otherMoves : right.Moves grammar second item) :
    first = second := by
  have sameDot : left.dot = right.dot := Nat.succ.inj (moves.dot.trans otherMoves.dot.symm)
  have sameProduction := moves.production.trans otherMoves.production.symm
  have awaited := moves.awaited
  rw [Item.next?, sameProduction, sameDot] at awaited
  exact Option.some.inj (awaited.symm.trans otherMoves.awaited)

/-- An item that a move over a token leads to is there by that move: only terminals are read, and
only nonterminals are completed. -/
theorem Coherent.provenance_of_scanned {source : ItemRef} (consistent : grammar.Consistent)
    (coherent : Coherent grammar tokens chart) (present : chart.item? place = some item)
    (reaches : chart.Reaches grammar tokens place item (.scanned source)) :
    item.provenance = .scanned source := by
  have founded := coherent.founded present
  have recorded := founded.reaches (founded.isMove_iff.mpr reaches.dot_ne_zero)
  generalize item.provenance = move at recorded ⊢
  cases reaches with
  | scanned sourcePresent nextColumn _ spelled moves =>
      cases recorded with
      | scanned otherPresent otherColumn _ _ otherMoves =>
          rw [coherent.source_unique otherPresent sourcePresent (by omega) otherMoves moves]
      | completed _ _ _ _ completes otherMoves =>
          obtain ⟨production, found, rfl⟩ := completes.lhs
          have terminal := Grammar.isTerminal_of_terminal? spelled
          rw [moves.symbol_unique otherMoves, consistent.nonterminal found] at terminal
          contradiction

namespace Ready

/-- Moves over tokens are never dropped. -/
theorem records_scanned {source : ItemRef} (consistent : grammar.Consistent)
    (fits : Fits grammar tokens) (ready : Ready grammar tokens chart consumed)
    (tried : Engine.Tried grammar tokens chart ⟨consumed, chart.width consumed⟩ (.scanned source)) :
    chart.Records (.scanned source) := by
  obtain ⟨place, item, present, reaches⟩ := ready.exists_target consistent fits tried
  exact ⟨place, item, present, ready.coherent.provenance_of_scanned consistent present reaches⟩

/-- At the end every pair that could meet has been tried. -/
theorem tried_completed_iff (consistent : grammar.Consistent)
    (ready : Ready grammar tokens chart consumed) :
    Engine.Tried grammar tokens chart ⟨consumed, chart.width consumed⟩ (.completed parent child) ↔
      (parent, child) ∈ chart.completions grammar := by
  rw [← ready.coherent.joins_iff_mem_completions consistent]
  apply and_iff_left_of_imp
  intro joins
  obtain ⟨item, inner, _, _, present, innerPresent, _⟩ := joins
  exact ⟨Engine.before_width present (ready.column_le present),
    Engine.before_width innerPresent (ready.column_le innerPresent)⟩

/-- The dot of an item moves over each complete item that it waits for. -/
theorem holds_of_completion {inner : Item} {production : Production} (consistent : grammar.Consistent)
    (fits : Fits grammar tokens) (ready : Ready grammar tokens chart consumed)
    (present : chart.item? parent = some item) (innerPresent : chart.item? child = some inner)
    (found : grammar.production? inner.production = some production)
    (ended : inner.dot = production.rhs.length) (origin : inner.origin = parent.column)
    (awaited : item.next? grammar = some production.lhs) :
    chart.Holds child.column item.production (item.dot + 1) item.origin := by
  have pair : (parent, child) ∈ chart.completions grammar :=
    Chart.mem_completions.mpr
      ⟨item, inner, production, present, innerPresent, found, ended, origin, awaited⟩
  obtain ⟨same, sameInner, symbol, value, samePresent, sameInnerPresent, inColumn, sameAwaited,
    completes⟩ := (ready.coherent.joins_iff_mem_completions consistent).mpr pair
  obtain rfl := Option.some.inj (present.symm.trans samePresent)
  exact ready.coherent.holds_of_nextKey consistent fits present sameAwaited
    (ready.hasKey_of_completes consistent present sameInnerPresent inColumn sameAwaited completes)

/-- Each item that has moved over a complete item is there by a move of its own. -/
theorem card_held_completed {held : Finset Provenance} (ready : Ready grammar tokens chart consumed)
    (isHeld : ∀ move, move ∈ held ↔ move.IsMove ∧ chart.Records move) :
    (held.filter fun move => move.isCompleted).card = chart.completed.card := by
  have images : (held.filter fun move => move.isCompleted) =
      chart.completed.image chart.provenanceAt := by
    ext move
    rw [Finset.mem_filter, isHeld, Finset.mem_image]
    constructor
    · intro parts
      obtain ⟨⟨_, place, item, present, rfl⟩, moved⟩ := parts
      exact ⟨place, Chart.mem_completed.mpr ⟨item, present, moved⟩,
        Chart.provenanceAt_of_item? present⟩
    · intro parts
      obtain ⟨place, listed, rfl⟩ := parts
      obtain ⟨item, present, moved⟩ := Chart.mem_completed.mp listed
      rw [Chart.provenanceAt_of_item? present]
      exact ⟨⟨Provenance.isMove_of_isCompleted moved, place, item, present, rfl⟩, moved⟩
  rw [images]
  apply Finset.card_image_of_injOn
  intro first firstListed second secondListed same
  obtain ⟨left, leftPresent, leftMoved⟩ := Chart.mem_completed.mp firstListed
  obtain ⟨right, rightPresent, rightMoved⟩ := Chart.mem_completed.mp secondListed
  simp only [Chart.provenanceAt_of_item? leftPresent, Chart.provenanceAt_of_item? rightPresent]
    at same
  have leftReaches := (ready.coherent.founded leftPresent).reaches
    (Provenance.isMove_of_isCompleted leftMoved)
  have rightReaches := (ready.coherent.founded rightPresent).reaches
    (Provenance.isMove_of_isCompleted rightMoved)
  rw [← same] at rightReaches
  exact ready.coherent.target_unique leftPresent rightPresent leftReaches rightReaches

theorem card_tried_completed {all : Finset Provenance} (consistent : grammar.Consistent)
    (ready : Ready grammar tokens chart consumed)
    (isTried : ∀ move, move ∈ all ↔
      Engine.Tried grammar tokens chart ⟨consumed, chart.width consumed⟩ move) :
    (all.filter fun move => move.isCompleted).card = (chart.completions grammar).card := by
  have images : (all.filter fun move => move.isCompleted) =
      (chart.completions grammar).image fun pair => .completed pair.1 pair.2 := by
    ext move
    rw [Finset.mem_filter, isTried, Finset.mem_image]
    cases move with
    | seed => simp [Provenance.isCompleted]
    | predicted => simp [Provenance.isCompleted]
    | scanned => simp [Provenance.isCompleted]
    | completed parent child =>
        rw [ready.tried_completed_iff consistent]
        simp [Provenance.isCompleted]
  rw [images]
  apply Finset.card_image_of_injective
  intro first second same
  obtain ⟨sameParent, sameChild⟩ := Provenance.completed.inj same
  exact Prod.ext sameParent sameChild

/-- The pairs that could meet are as many as the items that came out of a meeting and the moves that
were dropped. -/
theorem ambiguities_add_completed {ambiguities : Nat} (consistent : grammar.Consistent)
    (fits : Fits grammar tokens) (ready : Ready grammar tokens chart consumed)
    (balanced : Engine.Balanced grammar tokens ⟨chart, ambiguities⟩) :
    ambiguities + chart.completed.card = (chart.completions grammar).card := by
  unfold Engine.Balanced at balanced
  rw [ready.size_sub_one] at balanced
  obtain ⟨all, held, isTried, isHeld, counted⟩ := balanced.counted
  have overTokens : (all.filter fun move => ¬ move.isCompleted) =
      held.filter fun move => ¬ move.isCompleted := by
    ext move
    rw [Finset.mem_filter, Finset.mem_filter, isTried, isHeld]
    apply and_congr_left
    intro notCompleted
    constructor
    · intro tried
      refine ⟨balanced.moves tried, ?_⟩
      cases move with
      | seed => exact tried.elim
      | predicted => exact tried.elim
      | scanned => exact ready.records_scanned consistent fits tried
      | completed => exact absurd rfl notCompleted
    · intro parts
      exact balanced.recorded parts.1 parts.2
  have allParts := Finset.card_filter_add_card_filter_not (s := all) fun move => move.isCompleted
  have heldParts := Finset.card_filter_add_card_filter_not (s := held) fun move => move.isCompleted
  rw [ready.card_tried_completed consistent isTried, overTokens] at allParts
  rw [ready.card_held_completed isHeld] at heldParts
  change all.card = ambiguities + held.card at counted
  omega

end Ready

namespace Declaration

variable {declaration : Declaration} {limits : Limits}

/-- Completions are tried once each and none is lost. The dot of an item has moved over each complete
item that it waits for, the productions of each nonterminal that is expected have been started, and
of the pairs that could meet those are counted as dropped that led to no item. -/
theorem run_tries_each_completion_once (built : declaration.build = .ok grammar)
    (sizes : declaration.SizesFit tokens) (unlimited : limits.maxItems = 0) :
    (∀ {parent child item inner production},
        (grammar.run limits tokens).chart.item? parent = some item →
        (grammar.run limits tokens).chart.item? child = some inner →
        grammar.production? inner.production = some production →
        inner.dot = production.rhs.length → inner.origin = parent.column →
        item.next? grammar = some production.lhs →
        (grammar.run limits tokens).chart.Holds child.column item.production (item.dot + 1)
          item.origin) ∧
      (∀ {place item id production}, (grammar.run limits tokens).chart.item? place = some item →
        grammar.production? id = some production → item.next? grammar = some production.lhs →
        (grammar.run limits tokens).chart.Holds place.column id 0 place.column) ∧
      (grammar.run limits tokens).stats.ambiguities +
          (grammar.run limits tokens).chart.completed.card =
        ((grammar.run limits tokens).chart.completions grammar).card := by
  obtain ⟨start, numbers⟩ := numbers_of_build built
  have consistent := numbers.consistent
  have fits := numbers.fits sizes
  obtain ⟨consumed, ready⟩ := consistent.run_ready unlimited tokens
  refine ⟨?_, ?_, ?_⟩
  · intro parent child item inner production present innerPresent found ended origin awaited
    exact ready.holds_of_completion consistent fits present innerPresent found ended origin awaited
  · intro place item id production present found awaited
    exact ready.holds_of_next? consistent fits present found awaited
  · exact ready.ambiguities_add_completed consistent fits
      (consistent.run_balanced unlimited tokens)

/-- In the parse of `1 + 1 +` one item is met twice. -/
theorem doubleSum_tries_each_completion_once :
    1 + ((sums.grammar "sum").run {} (openSum ++ openSum)).chart.completed.card =
      (((sums.grammar "sum").run {} (openSum ++ openSum)).chart.completions
        (sums.grammar "sum")).card := by
  have counted : ((sums.grammar "sum").run {} (openSum ++ openSum)).stats.ambiguities = 1 := by
    decide +kernel
  rw [← counted]
  exact (run_tries_each_completion_once build_sums (sizesFit_sums (by decide)) rfl).2.2

end Declaration

end EarleyChart
