import Mathlib.Data.Finset.Card
import EarleyChart.Proofs.Runs

/-!
Contract: what the count of dropped derivations counts.

A parse moves dots over tokens and over complete items. `Engine.Tried` lists the moves that it has
tried when it is about to process an item: those whose items have all been processed before. A move
is tried when the later of its two items is processed, hence once only, and so a dropped one is never
made up for. `Engine.Tally` is the invariant that follows: as many moves were tried as were dropped
and are the provenance of an item together.

`Engine.Arises` are the moves that come with one more item. Processing the item tries these and no
others (`ends_process_tally`), and then the front passes it (`Tallied.passes`).
-/

namespace EarleyChart

/-- A dot has moved, over a token or over a complete item. -/
def Provenance.IsMove : Provenance → Prop
  | scanned _ => True
  | completed _ _ => True
  | seed => False
  | predicted _ => False

/-- Some item is there by a move. -/
def Chart.Records (chart : Chart) (move : Provenance) : Prop :=
  ∃ place item, chart.item? place = some item ∧ item.provenance = move

/-- The item at `parent` waits for what the complete item at `child` derives. -/
def Chart.Joins (grammar : Grammar) (chart : Chart) (parent child : ItemRef) : Prop :=
  ∃ item inner symbol value, chart.item? parent = some item ∧ chart.item? child = some inner ∧
    parent.column = inner.origin ∧ item.next? grammar = some symbol ∧
    Engine.Completes grammar inner symbol value

/-- The item at `source` expects the token after its column. -/
def Chart.Expects (grammar : Grammar) (tokens : List Token) (chart : Chart) (source : ItemRef) :
    Prop :=
  ∃ item token symbol, chart.item? source = some item ∧ tokens[source.column]? = some token ∧
    grammar.terminal? token.name = some symbol ∧ item.next? grammar = some symbol

theorem ItemRef.before_irrefl (place : ItemRef) : ¬ place.Before place := by
  intro before
  rcases before with earlier | ⟨_, earlier⟩ <;> omega

section Charts

variable {grammar : Grammar} {tokens : List Token} {chart : Chart}

theorem Coherent.not_joins_self (consistent : grammar.Consistent)
    (coherent : Coherent grammar tokens chart) (place : ItemRef) :
    ¬ chart.Joins grammar place place := by
  intro joins
  obtain ⟨item, inner, symbol, value, present, samePresent, _, awaited, completes⟩ := joins
  obtain rfl := Option.some.inj (present.symm.trans samePresent)
  exact Engine.not_completes_of_next? (coherent.reads consistent present) awaited completes

theorem Chart.records_add {column : Nat} {item : Item} {token : Option Token}
    {move : Provenance} (reached : column ≤ chart.size) :
    (chart.add column item token).Records move ↔ chart.Records move ∨ move = item.provenance := by
  constructor
  · intro recorded
    obtain ⟨place, found, present, rfl⟩ := recorded
    rw [Chart.item?_add reached] at present
    split at present
    next =>
      obtain rfl := Option.some.inj present
      exact .inr rfl
    next => exact .inl ⟨place, found, present, rfl⟩
  · intro either
    rcases either with ⟨place, found, present, rfl⟩ | rfl
    · exact ⟨place, found, (Chart.Grows.add reached).items present, rfl⟩
    · refine ⟨⟨column, chart.width column⟩, item, ?_, rfl⟩
      rw [Chart.item?_add reached, if_pos rfl]

end Charts

namespace Engine

/-- The moves that were tried are those that were dropped and those that are recorded. -/
structure Tally (tried : Provenance → Prop) (state : ParseState) : Prop where
  moves : ∀ {move}, tried move → move.IsMove
  recorded : ∀ {move}, move.IsMove → state.chart.Records move → tried move
  counted : ∃ all held : Finset Provenance, (∀ move, move ∈ all ↔ tried move) ∧
    (∀ move, move ∈ held ↔ move.IsMove ∧ state.chart.Records move) ∧
    all.card = state.ambiguities + held.card

section Moves

variable {tried : Provenance → Prop} {state : ParseState} {move : Provenance}

/-- Nothing was dropped exactly if the moves that were tried are all recorded. -/
theorem Tally.exact (tally : Tally tried state) :
    state.ambiguities = 0 ↔ ∀ move, tried move → state.chart.Records move := by
  obtain ⟨all, held, isTried, isHeld, counted⟩ := tally.counted
  constructor
  · intro none move triedMove
    have included : held ⊆ all := by
      intro other member
      obtain ⟨isMove, recorded⟩ := (isHeld other).mp member
      exact (isTried other).mpr (tally.recorded isMove recorded)
    have same : held = all := Finset.eq_of_subset_of_card_le included (by omega)
    exact ((isHeld move).mp (same ▸ (isTried move).mpr triedMove)).2
  · intro everything
    have included : all ⊆ held := by
      intro other member
      have triedOther := (isTried other).mp member
      exact (isHeld other).mpr ⟨tally.moves triedOther, everything other triedOther⟩
    have counts := Finset.card_le_card included
    omega

theorem Tally.congr {same : Provenance → Prop} (tally : Tally tried state)
    (agree : ∀ move, same move ↔ tried move) : Tally same state := by
  have equal : same = tried := funext fun move => propext (agree move)
  rw [equal]
  exact tally

theorem Tally.drop (tally : Tally tried state) (isMove : move.IsMove) (untried : ¬ tried move) :
    Tally (fun other => tried other ∨ other = move)
      { state with ambiguities := state.ambiguities + 1 } where
  moves := by
    intro other either
    rcases either with before | rfl
    · exact tally.moves before
    · exact isMove
  recorded := fun otherMoves recorded => .inl (tally.recorded otherMoves recorded)
  counted := by
    obtain ⟨all, held, isTried, isHeld, counted⟩ := tally.counted
    have fresh : move ∉ all := fun member => untried ((isTried move).mp member)
    refine ⟨all.cons move fresh, held, ?_, isHeld, ?_⟩
    · intro other
      rw [Finset.mem_cons, isTried, or_comm]
    · rw [Finset.card_cons, counted, Nat.add_right_comm]

theorem Tally.add {column : Nat} {item : Item} {token : Option Token} (tally : Tally tried state)
    (reached : column ≤ state.chart.size) (moved : item.provenance = move) (isMove : move.IsMove)
    (untried : ¬ tried move) :
    Tally (fun other => tried other ∨ other = move)
      { state with chart := state.chart.add column item token } where
  moves := by
    intro other either
    rcases either with before | rfl
    · exact tally.moves before
    · exact isMove
  recorded := by
    intro other otherMoves recorded
    rw [Chart.records_add reached, moved] at recorded
    rcases recorded with before | isNew
    · exact .inl (tally.recorded otherMoves before)
    · exact .inr isNew
  counted := by
    obtain ⟨all, held, isTried, isHeld, counted⟩ := tally.counted
    have fresh : move ∉ all := fun member => untried ((isTried move).mp member)
    -- Whatever is recorded was tried before, so the move is not recorded yet.
    have unheld : move ∉ held := by
      intro member
      obtain ⟨_, recorded⟩ := (isHeld move).mp member
      exact untried (tally.recorded isMove recorded)
    refine ⟨all.cons move fresh, held.cons move unheld, ?_, ?_, ?_⟩
    · intro other
      rw [Finset.mem_cons, isTried, or_comm]
    · intro other
      rw [Finset.mem_cons, isHeld, Chart.records_add reached, moved]
      constructor
      · intro either
        rcases either with rfl | ⟨otherMoves, recorded⟩
        · exact ⟨isMove, .inr rfl⟩
        · exact ⟨otherMoves, .inl recorded⟩
      · intro parts
        obtain ⟨otherMoves, recorded | isNew⟩ := parts
        · exact .inr ⟨otherMoves, recorded⟩
        · exact .inl isNew
    · rw [Finset.card_cons, Finset.card_cons, counted, Nat.add_assoc]

/-- An item that is there by no move leaves the tally as it is. -/
theorem Tally.add_start {column : Nat} {item : Item} {token : Option Token}
    (tally : Tally tried state) (reached : column ≤ state.chart.size)
    (isStart : ¬ item.provenance.IsMove) :
    Tally tried { state with chart := state.chart.add column item token } := by
  have same {other : Provenance} (otherMoves : other.IsMove) :
      (state.chart.add column item token).Records other ↔ state.chart.Records other := by
    rw [Chart.records_add reached]
    apply or_iff_left
    rintro rfl
    exact isStart otherMoves
  refine ⟨tally.moves, ?_, ?_⟩
  · intro other otherMoves recorded
    exact tally.recorded otherMoves ((same otherMoves).mp recorded)
  · obtain ⟨all, held, isTried, isHeld, counted⟩ := tally.counted
    refine ⟨all, held, isTried, ?_, counted⟩
    intro other
    exact (isHeld other).trans (and_congr_right fun otherMoves => (same otherMoves).symm)

end Moves

variable {grammar : Grammar} {tokens : List Token} {limits : Limits} {column : Nat}
  {state : ParseState}

/-- A step does not stop. -/
def Never (_ : ParseError) (_ : ParseState) : Prop :=
  False

/-- The tally of the moves tried, in a chart that has grown in one column. -/
structure Tallied (tried : Provenance → Prop) (column : Nat) (before after : ParseState) : Prop where
  tally : Tally tried after
  grows : before.chart.Grows column after.chart

section Steps

variable {tried : Provenance → Prop}

theorem ends_insert_unlimited {item : Item} {token : Option Token}
    {done : Unit → ParseState → Prop} {stopped : ParseError → ParseState → Prop}
    (unlimited : limits.maxItems = 0)
    (origin : item.origin ≤ column) (reached : column ≤ state.chart.size)
    (fresh : state.chart.find? column item.key = none) :
    Ends (insert limits column item token) state done stopped ↔
      done () { state with chart := state.chart.add column item token } := by
  unfold insert
  rw [ends_bind, ends_place_of_fresh origin reached fresh, ends_ite,
    if_neg fun full => full.1 unlimited]
  exact Iff.rfl

theorem ends_advance_tally {source : ItemRef} {item : Item} {production : Production}
    {value : Value} {move : Provenance} {token : Option Token} (unlimited : limits.maxItems = 0)
    (present : state.chart.item? source = some item)
    (found : grammar.production? item.production = some production)
    (origin : item.origin ≤ column) (reached : column ≤ state.chart.size)
    (tally : Tally tried state) (isMove : move.IsMove) (untried : ¬ tried move) :
    Ends (advance grammar limits column source value move token) state
      (fun _ next => Tallied (fun other => tried other ∨ other = move) column state next)
      Never := by
  unfold advance
  rw [ends_bind, ends_getChart]
  simp only [present]
  rw [ends_bind, ends_getChart, ends_ite]
  split
  next => exact ⟨tally.drop isMove untried, .refl _⟩
  next absent =>
    have fresh : state.chart.find? column (item.advanced production value move).key = none := by
      rw [Item.key_advanced]
      exact Option.not_isSome_iff_eq_none.mp absent
    have sameOrigin : (item.advanced production value move).origin ≤ column := origin
    rw [ends_bind, ends_getProduction found]
    apply (ends_insert_unlimited unlimited sameOrigin reached fresh).mpr
    exact ⟨tally.add reached rfl isMove untried, .add reached⟩

/-- A loop over moves that differ and were not tried before. -/
theorem ends_moves {β : Type} {elements : List β} {step : β → Engine Unit} {move : β → Provenance}
    (column : Nat)
    (round : ∀ element ∈ elements, ∀ middle tried, state.chart.Grows column middle.chart →
      Tally tried middle → ¬ tried (move element) →
      Ends (step element) middle
        (fun _ next => Tallied (fun other => tried other ∨ other = move element) column middle next)
        Never)
    (distinct : (elements.map move).Nodup)
    (untried : ∀ element ∈ elements, ¬ tried (move element)) (tally : Tally tried state) :
    Ends (elements.forM step) state
      (fun _ next => Tallied
        (fun other => tried other ∨ ∃ element ∈ elements, other = move element) column state next)
      Never := by
  induction elements generalizing state tried with
  | nil =>
      refine ⟨tally.congr ?_, .refl _⟩
      simp
  | cons first rest inductionHypothesis =>
      change Ends (step first >>= fun _ => rest.forM step) state _ Never
      rw [ends_bind]
      rw [List.map_cons, List.nodup_cons] at distinct
      have firstRound := round first List.mem_cons_self state tried (.refl _) tally
        (untried first List.mem_cons_self)
      refine firstRound.mono ?_ (fun _ _ stops => stops)
      intro _ middle moved
      -- The other moves differ from the first, so that they are still untried after it.
      have untriedRest : ∀ element ∈ rest,
          ¬ (tried (move element) ∨ move element = move first) := by
        intro element member either
        rcases either with before | same
        · exact untried element (List.mem_cons_of_mem _ member) before
        · exact distinct.1 (List.mem_map.mpr ⟨element, member, same⟩)
      have others := inductionHypothesis
        (fun element member later laterTried grows =>
          round element (List.mem_cons_of_mem _ member) later laterTried (moved.grows.trans grows))
        distinct.2 untriedRest moved.tally
      refine others.mono ?_ (fun _ _ stops => stops)
      intro _ next movedOn
      refine ⟨movedOn.tally.congr ?_, moved.grows.trans movedOn.grows⟩
      intro other
      simp only [List.mem_cons, exists_eq_or_imp, or_assoc]

theorem ends_predictProduction_tally {predictor : ItemRef} {id : ProductionId}
    {production : Production} (unlimited : limits.maxItems = 0)
    (reached : predictor.column ≤ state.chart.size)
    (found : grammar.production? id = some production) (tally : Tally tried state) :
    Ends (predictProduction grammar limits predictor id) state
      (fun _ next => Tallied tried predictor.column state next) Never := by
  unfold predictProduction
  rw [ends_bind, ends_getChart, ends_ite]
  split
  next absent =>
    let started : Item :=
      { production := id, dot := 0, origin := predictor.column,
        payload := payloadAt production 0 [], provenance := .predicted predictor }
    have fresh : state.chart.find? predictor.column started.key = none :=
      Option.isNone_iff_eq_none.mp absent
    have origin : started.origin ≤ predictor.column := Nat.le_refl _
    rw [ends_bind, ends_getProduction found]
    apply (ends_insert_unlimited unlimited origin reached fresh).mpr
    exact ⟨tally.add_start reached (fun isMove => isMove), .add reached⟩
  next => exact ⟨tally, .refl _⟩

end Steps

/-- The moves that a parse has tried when it is about to process the item at `front`. -/
def Tried (grammar : Grammar) (tokens : List Token) (chart : Chart) (front : ItemRef) :
    Provenance → Prop
  | .completed parent child =>
      chart.Joins grammar parent child ∧ parent.Before front ∧ child.Before front
  | .scanned source => chart.Expects grammar tokens source ∧ source.column < front.column
  | .seed => False
  | .predicted _ => False

section Fronts

variable {chart before after : Chart} {front place parent child source : ItemRef}
  {move : Provenance}

theorem joins_of_same (sameParent : after.item? parent = before.item? parent)
    (sameChild : after.item? child = before.item? child) :
    after.Joins grammar parent child ↔ before.Joins grammar parent child := by
  unfold Chart.Joins
  rw [sameParent, sameChild]

theorem expects_of_same (same : after.item? source = before.item? source) :
    after.Expects grammar tokens source ↔ before.Expects grammar tokens source := by
  unfold Chart.Expects
  rw [same]

theorem item?_of_before {index : Nat} (grows : before.Grows column after)
    (inside : index ≤ before.width column) (earlier : place.Before ⟨column, index⟩) :
    after.item? place = before.item? place := by
  rcases earlier with earlierColumn | ⟨sameColumn, earlierIndex⟩
  · exact grows.elsewhere (Nat.ne_of_lt earlierColumn)
  · apply grows.item?_eq
    rw [sameColumn]
    exact Nat.lt_of_lt_of_le earlierIndex inside

/-- What has been tried stays so while the chart grows behind the front. -/
theorem tried_grows {index : Nat} (grows : before.Grows column after)
    (inside : index ≤ before.width column) :
    Tried grammar tokens after ⟨column, index⟩ move ↔
      Tried grammar tokens before ⟨column, index⟩ move := by
  cases move with
  | seed => exact Iff.rfl
  | predicted => exact Iff.rfl
  | scanned source =>
      apply and_congr_left
      intro earlier
      exact expects_of_same (grows.elsewhere (Nat.ne_of_lt earlier))
  | completed parent child =>
      apply and_congr_left
      intro earlier
      exact joins_of_same (item?_of_before grows inside earlier.1)
        (item?_of_before grows inside earlier.2)

/-- The moves between the item at a place and an item before it. -/
def Arises (grammar : Grammar) (chart : Chart) (place : ItemRef) (move : Provenance) : Prop :=
  (∃ child, move = .completed place child ∧ chart.Joins grammar place child ∧
      child.Before place) ∨
    ∃ parent, move = .completed parent place ∧ chart.Joins grammar parent place ∧
      parent.Before place

theorem before_next_iff {index : Nat} :
    place.Before ⟨column, index + 1⟩ ↔ place.Before ⟨column, index⟩ ∨ place = ⟨column, index⟩ := by
  cases place
  simp only [ItemRef.Before, ItemRef.mk.injEq]
  omega

/-- Passing an item adds the moves between it and the items before it. -/
theorem tried_next {index : Nat} (apart : ¬ chart.Joins grammar ⟨column, index⟩ ⟨column, index⟩) :
    Tried grammar tokens chart ⟨column, index + 1⟩ move ↔
      Tried grammar tokens chart ⟨column, index⟩ move ∨
        Arises grammar chart ⟨column, index⟩ move := by
  cases move with
  | seed => simp [Tried, Arises]
  | predicted => simp [Tried, Arises]
  | scanned source => simp [Tried, Arises]
  | completed parent child =>
      simp only [Tried, Arises, before_next_iff, Provenance.completed.injEq]
      constructor
      · intro later
        obtain ⟨joins, parentBefore | rfl, childBefore | rfl⟩ := later
        · exact .inl ⟨joins, parentBefore, childBefore⟩
        · exact .inr (.inr ⟨parent, ⟨rfl, rfl⟩, joins, parentBefore⟩)
        · exact .inr (.inl ⟨child, ⟨rfl, rfl⟩, joins, childBefore⟩)
        · -- An item cannot wait for itself.
          exact absurd joins apart
      · intro either
        rcases either with ⟨joins, parentBefore, childBefore⟩ |
          ⟨_, ⟨rfl, rfl⟩, joins, before⟩ | ⟨_, ⟨rfl, rfl⟩, joins, before⟩
        · exact ⟨joins, .inl parentBefore, .inl childBefore⟩
        · exact ⟨joins, .inr rfl, .inl before⟩
        · exact ⟨joins, .inl before, .inr rfl⟩

theorem not_tried_of_arises (arises : Arises grammar chart place move) :
    ¬ Tried grammar tokens chart place move := by
  intro tried
  rcases arises with ⟨child, rfl, _, _⟩ | ⟨parent, rfl, _, _⟩
  · exact place.before_irrefl tried.2.1
  · exact place.before_irrefl tried.2.2

end Fronts

section Processing

variable {index : Nat} {item : Item}

/-- Once an item has been processed, the front passes it. -/
theorem Tallied.passes {next : ParseState} (consistent : grammar.Consistent)
    (coherent : Coherent grammar tokens state.chart)
    (present : state.chart.item? ⟨column, index⟩ = some item)
    (tallied : Tallied (fun move => Tried grammar tokens state.chart ⟨column, index⟩ move ∨
      Arises grammar state.chart ⟨column, index⟩ move) column state next) :
    Tally (Tried grammar tokens next.chart ⟨column, index + 1⟩) next := by
  have inside : index < state.chart.width column := Chart.index_lt_width_iff.mpr ⟨item, present⟩
  apply tallied.tally.congr
  intro move
  rw [tried_grows tallied.grows inside, tried_next (coherent.not_joins_self consistent _)]

theorem nodup_indicesBelow (found : Column) (limit : Nat) (property : Item → Bool) :
    (found.indicesBelow limit property).Nodup :=
  List.nodup_range.filter _

theorem nodup_emptyDerivations (chart : Chart) (symbol : SymbolId) (place : ItemRef) :
    ((emptyDerivations grammar chart symbol place).map fun pair =>
      Provenance.completed place pair.1).Nodup := by
  unfold emptyDerivations
  split
  next => exact List.nodup_nil
  next found _ =>
    rw [List.map_filterMap]
    refine (nodup_indicesBelow found _ _).filterMap ?_
    intro first second move fromFirst fromSecond
    simp only [Option.map_map, Option.mem_def, Option.map_eq_some_iff, Function.comp_apply]
      at fromFirst fromSecond
    obtain ⟨_, _, rfl⟩ := fromFirst
    obtain ⟨_, _, same⟩ := fromSecond
    simp only [Provenance.completed.injEq, ItemRef.mk.injEq] at same
    exact same.2.2.symm

theorem nodup_waiting {symbol : SymbolId} {child : ItemRef} {origin : Nat} {found : Column} :
    ((waiting grammar symbol child origin found).map fun parent =>
      Provenance.completed parent child).Nodup := by
  unfold waiting
  rw [List.map_map]
  refine List.Nodup.map ?_ (nodup_indicesBelow _ _ _)
  intro first second same
  simp only [Function.comp_apply, Provenance.completed.injEq, ItemRef.mk.injEq] at same
  exact same.1.2

/-- What arises at an item that expects a symbol: moves over the empty derivations before it. -/
theorem arises_of_next? {chart : Chart} {place : ItemRef} {symbol : SymbolId} {move : Provenance}
    (consistent : grammar.Consistent) (coherent : Coherent grammar tokens chart)
    (present : chart.item? place = some item) (awaited : item.next? grammar = some symbol) :
    Arises grammar chart place move ↔
      ∃ pair ∈ emptyDerivations grammar chart symbol place, move = .completed place pair.1 := by
  constructor
  · intro arises
    rcases arises with ⟨child, rfl, joins, before⟩ | ⟨parent, rfl, joins, _⟩
    · obtain ⟨same, inner, other, value, samePresent, innerPresent, inColumn, sameAwaited,
        completes⟩ := joins
      obtain rfl := Option.some.inj (present.symm.trans samePresent)
      obtain rfl := Option.some.inj (awaited.symm.trans sameAwaited)
      have origin := coherent.origin_le consistent innerPresent
      rcases before with earlier | ⟨sameColumn, earlier⟩
      · omega
      · exact ⟨(child, value), mem_emptyDerivations.mpr
          ⟨sameColumn, earlier, inner, innerPresent, inColumn.symm, completes⟩, rfl⟩
    · obtain ⟨_, same, _, value, _, samePresent, _, _, completes⟩ := joins
      obtain rfl := Option.some.inj (present.symm.trans samePresent)
      exact absurd completes
        (not_completes_of_next? (coherent.reads consistent present) awaited)
  · intro skipped
    obtain ⟨⟨child, value⟩, member, rfl⟩ := skipped
    obtain ⟨sameColumn, earlier, inner, innerPresent, origin, completes⟩ :=
      mem_emptyDerivations.mp member
    exact .inl ⟨child, rfl, ⟨item, inner, symbol, value, present, innerPresent, origin.symm, awaited,
      completes⟩, .inr ⟨sameColumn, earlier⟩⟩

/-- What arises at a complete item: moves of the items that wait for it. -/
theorem arises_of_completes {chart : Chart} {place : ItemRef} {symbol : SymbolId} {value : Value}
    {move : Provenance} {found : Column} (consistent : grammar.Consistent)
    (coherent : Coherent grammar tokens chart) (present : chart.item? place = some item)
    (completes : Completes grammar item symbol value)
    (reached : chart.column? item.origin = some found) :
    Arises grammar chart place move ↔
      ∃ parent ∈ waiting grammar symbol place item.origin found, move = .completed parent place := by
  have origin := coherent.origin_le consistent present
  constructor
  · intro arises
    rcases arises with ⟨child, rfl, joins, _⟩ | ⟨parent, rfl, joins, before⟩
    · obtain ⟨same, _, _, _, samePresent, _, _, awaited, _⟩ := joins
      obtain rfl := Option.some.inj (present.symm.trans samePresent)
      exact absurd completes
        (not_completes_of_next? (coherent.reads consistent present) awaited)
    · obtain ⟨earlier, same, other, _, earlierPresent, samePresent, inColumn, awaited,
        ⟨⟨production, productionFound, rfl⟩, _⟩⟩ := joins
      obtain rfl := Option.some.inj (present.symm.trans samePresent)
      obtain ⟨⟨_, sameFound, rfl⟩, _⟩ := completes
      obtain rfl := Option.some.inj (productionFound.symm.trans sameFound)
      refine ⟨parent, (mem_waiting reached).mpr ⟨inColumn, ?_, earlier, earlierPresent, awaited⟩,
        rfl⟩
      intro sameColumn
      rcases before with earlierColumn | ⟨_, earlierIndex⟩
      · omega
      · exact earlierIndex
  · intro resumed
    obtain ⟨parent, member, rfl⟩ := resumed
    obtain ⟨inColumn, earlierIndex, earlier, earlierPresent, awaited⟩ :=
      (mem_waiting reached).mp member
    refine .inr ⟨parent, rfl, ⟨earlier, item, symbol, value, earlierPresent, present, inColumn,
      awaited, completes⟩, ?_⟩
    by_cases sameColumn : item.origin = place.column
    · exact .inr ⟨inColumn.trans sameColumn, earlierIndex sameColumn⟩
    · exact .inl (by omega)

theorem mem_emptyDerivations_grows {before after : Chart} {place : ItemRef} {symbol : SymbolId}
    {pair : ItemRef × Value} (grows : before.Grows column after)
    (present : before.item? place = some item) :
    pair ∈ emptyDerivations grammar after symbol place ↔
      pair ∈ emptyDerivations grammar before symbol place := by
  have below := Chart.index_lt_width_iff.mpr ⟨item, present⟩
  obtain ⟨child, value⟩ := pair
  rw [mem_emptyDerivations, mem_emptyDerivations]
  apply and_congr_right
  intro sameColumn
  apply and_congr_right
  intro earlier
  rw [grows.item?_eq (by rw [sameColumn]; omega)]

variable {tried : Provenance → Prop} {place : ItemRef} {symbol : SymbolId}

theorem ends_predict_tally (consistent : grammar.Consistent)
    (coherent : Coherent grammar tokens state.chart) (unlimited : limits.maxItems = 0)
    (present : state.chart.item? place = some item) (awaited : item.next? grammar = some symbol)
    (tally : Tally tried state)
    (untried : ∀ {move}, Arises grammar state.chart place move → ¬ tried move) :
    Ends (predict grammar limits place symbol) state
      (fun _ next => Tallied (fun move => tried move ∨ Arises grammar state.chart place move)
        place.column state next) Never := by
  have inside := Chart.column_lt_size present
  obtain ⟨production, found, _⟩ := next?_eq_some_iff.mp awaited
  have origin := coherent.origin_le consistent present
  unfold predict
  rw [ends_bind]
  refine (ends_forM (Tallied tried place.column state) (fun _ _ => True) ?_
    ⟨tally, .refl _⟩).mono ?_ (fun _ _ stops => stops)
  · intro id member middle tallied
    obtain ⟨predicted, predictedFound, _⟩ := consistent.listed.mp member
    have reached := Nat.le_trans (Nat.le_of_lt inside) tallied.grows.size_le
    refine (ends_predictProduction_tally unlimited reached predictedFound tallied.tally).mono ?_
      (fun _ _ stops => stops)
    intro _ next further
    exact ⟨⟨further.tally, tallied.grows.trans further.grows⟩, trivial, fun _ _ => trivial⟩
  · intro _ middle predicted
    obtain ⟨tallied, -, -⟩ := predicted
    -- Prediction only adds behind the item, so it has not changed what arises there.
    have arising (move : Provenance) : Arises grammar state.chart place move ↔
        ∃ pair ∈ emptyDerivations grammar middle.chart symbol place,
          move = .completed place pair.1 := by
      simp only [mem_emptyDerivations_grows tallied.grows present]
      exact arises_of_next? consistent coherent present awaited
    rw [ends_ite]
    split
    next nullable =>
      rw [ends_bind, ends_getChart]
      refine (ends_moves place.column ?_ (nodup_emptyDerivations _ _ _) ?_ tallied.tally).mono ?_
        (fun _ _ stops => stops)
      · intro pair member later laterTried grows laterTally laterUntried
        have presentNow := grows.items (tallied.grows.items present)
        exact ends_advance_tally unlimited presentNow found origin
          (Nat.le_of_lt (Chart.column_lt_size presentNow)) laterTally trivial laterUntried
      · intro pair member
        exact untried ((arising _).mpr ⟨pair, member, rfl⟩)
      · intro _ next further
        refine ⟨further.tally.congr ?_, tallied.grows.trans further.grows⟩
        intro move
        rw [arising move]
    next notNullable =>
      refine ⟨tallied.tally.congr ?_, tallied.grows⟩
      intro move
      apply or_iff_left
      intro arises
      obtain ⟨⟨child, value⟩, member, _⟩ :=
        (arises_of_next? consistent coherent present awaited).mp arises
      obtain ⟨sameColumn, _, inner, innerPresent, emptyOrigin, completes⟩ :=
        mem_emptyDerivations.mp member
      exact notNullable (coherent.nullable_of_completes consistent innerPresent
        (emptyOrigin.trans sameColumn.symm) completes)

theorem ends_complete_tally {value : Value} (consistent : grammar.Consistent)
    (coherent : Coherent grammar tokens state.chart) (unlimited : limits.maxItems = 0)
    (present : state.chart.item? place = some item)
    (completes : Completes grammar item symbol value) (tally : Tally tried state)
    (untried : ∀ {move}, Arises grammar state.chart place move → ¬ tried move) :
    Ends (complete grammar limits place symbol item.origin value) state
      (fun _ next => Tallied (fun move => tried move ∨ Arises grammar state.chart place move)
        place.column state next) Never := by
  have origin := coherent.origin_le consistent present
  have inside := Chart.column_lt_size present
  obtain ⟨found, reached⟩ : ∃ found, state.chart.column? item.origin = some found :=
    ⟨_, Array.getElem?_eq_getElem (Nat.lt_of_le_of_lt origin inside)⟩
  have arising (move : Provenance) : Arises grammar state.chart place move ↔
      ∃ parent ∈ waiting grammar symbol place item.origin found,
        move = .completed parent place :=
    arises_of_completes consistent coherent present completes reached
  unfold complete
  rw [ends_bind, ends_getChart]
  simp only [reached]
  refine (ends_moves place.column ?_ nodup_waiting ?_ tally).mono ?_ (fun _ _ stops => stops)
  · intro parent member later laterTried grows laterTally laterUntried
    obtain ⟨inColumn, _, earlier, earlierPresent, awaited⟩ := (mem_waiting reached).mp member
    obtain ⟨production, earlierFound, _⟩ := next?_eq_some_iff.mp awaited
    have earlierOrigin := coherent.origin_le consistent earlierPresent
    exact ends_advance_tally unlimited (grows.items earlierPresent) earlierFound (by omega)
      (Nat.le_of_lt (Chart.column_lt_size (grows.items present))) laterTally trivial laterUntried
  · intro parent member
    exact untried ((arising _).mpr ⟨parent, member, rfl⟩)
  · intro _ next further
    refine ⟨further.tally.congr ?_, further.grows⟩
    intro move
    rw [arising move]

/-- Nothing arises at an item that expects a terminal, for only nonterminals are derived. -/
theorem not_arises_of_terminal {chart : Chart} {move : Provenance}
    (consistent : grammar.Consistent) (coherent : Coherent grammar tokens chart)
    (present : chart.item? place = some item) (awaited : item.next? grammar = some symbol)
    (terminal : grammar.isTerminal symbol = true) : ¬ Arises grammar chart place move := by
  intro arises
  obtain ⟨⟨child, value⟩, member, _⟩ :=
    (arises_of_next? consistent coherent present awaited).mp arises
  obtain ⟨_, _, _, _, _, ⟨⟨production, found, rfl⟩, _⟩⟩ := mem_emptyDerivations.mp member
  rw [consistent.nonterminal found] at terminal
  contradiction

/-- Processing an item tries what arises at it. -/
theorem ends_process_tally (consistent : grammar.Consistent)
    (coherent : Coherent grammar tokens state.chart) (unlimited : limits.maxItems = 0)
    (present : state.chart.item? place = some item) (tally : Tally tried state)
    (untried : ∀ {move}, Arises grammar state.chart place move → ¬ tried move) :
    Ends (process grammar limits place item) state
      (fun _ next => Tallied (fun move => tried move ∨ Arises grammar state.chart place move)
        place.column state next) Never := by
  unfold process
  cases awaited : item.next? grammar with
  | some symbol =>
      dsimp only
      rw [ends_ite]
      split
      next => exact ends_predict_tally consistent coherent unlimited present awaited tally untried
      next terminal =>
        refine ⟨tally.congr ?_, .refl _⟩
        intro move
        apply or_iff_left
        exact not_arises_of_terminal consistent coherent present awaited (by simpa using terminal)
  | none =>
      obtain ⟨production, value, found, reduced⟩ :=
        completes_of_next?_eq_none (coherent.reads consistent present) awaited
      dsimp only
      rw [ends_bind, ends_getProduction found]
      simp only [reduced]
      exact ends_complete_tally consistent coherent unlimited present
        ⟨⟨production, found, rfl⟩, reduced⟩ tally untried

end Processing

end Engine

end EarleyChart
