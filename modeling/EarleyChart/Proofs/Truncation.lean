import EarleyChart.Proofs.LeftToRight

/-!
Contract: the limit on the items of a column only cuts a parse short.

Two parses that differ in this limit alone are compared step by step from one state. `Truncated` is what
the comparison of two outcomes comes to: while every column fits they are the same, and otherwise
the limited one has stopped in the first column that does not fit, right behind the item that is one
too many. What the unlimited parse does after that item keeps the cut in place (`CutAt.later`), so
steps can be put together (`truncated_bind`). What holds of parses that no limit cuts short therefore
holds under any limits that are not reached (`Declaration.withinLimits_of_fits`).
-/

namespace EarleyChart

/-- The limits with another largest number of items in a column. -/
def Limits.withItems (limits : Limits) (items : Nat) : Limits :=
  { limits with maxItems := items }

@[simp] theorem Limits.maxTokens_withItems (limits : Limits) (items : Nat) :
    (limits.withItems items).maxTokens = limits.maxTokens :=
  rfl

namespace Chart

/-- No column has more items than the limit. -/
def Fits (limit : Nat) (chart : Chart) : Prop :=
  ∀ column, chart.width column ≤ limit

/-- A column is the first one with more items than the limit. -/
structure Overflows (limit column : Nat) (chart : Chart) : Prop where
  large : limit < chart.width column
  first : ∀ {earlier}, earlier < column → chart.width earlier ≤ limit

/-- The columns of `whole` before a column, and this column with its items up to the first that is
over the limit. -/
structure CutAt (limit column : Nat) (whole cut : Chart) : Prop where
  size : cut.size = column + 1
  before : ∀ {earlier}, earlier < column → cut.column? earlier = whole.column? earlier
  last : ∃ full part, whole.column? column = some full ∧ cut.column? column = some part ∧
    part.index = full.index ∧ part.token = full.token ∧
    part.items.toList = full.items.toList.take (limit + 1)

/-- All columns but the last one are as they were, and the last one may have grown. -/
structure Continues (before after : Chart) : Prop where
  closed : ∀ {column}, column + 1 < before.size → after.column? column = before.column? column
  last : ∀ {column found}, column + 1 = before.size → before.column? column = some found →
    ∃ grown, after.column? column = some grown ∧ found.Continues grown

variable {limit column : Nat} {chart first second third : Chart}

theorem width_of_column? {found : Column} (present : chart.column? column = some found) :
    chart.width column = found.items.toList.length := by
  simp [width, present]

theorem exists_of_lt_width {least : Nat} (large : least < chart.width column) :
    ∃ found, chart.column? column = some found := by
  cases present : chart.column? column with
  | some found => exact ⟨found, rfl⟩
  | none => simp [width, present] at large

theorem exists_overflows (large : ¬ chart.Fits limit) : ∃ column, chart.Overflows limit column := by
  classical
  have exceeds : ∃ column, limit < chart.width column := by
    by_contra none
    exact large fun column => Nat.le_of_not_lt fun more => none ⟨column, more⟩
  refine ⟨Nat.find exceeds, Nat.find_spec exceeds, ?_⟩
  intro earlier before
  exact Nat.le_of_not_lt (Nat.find_min exceeds before)

theorem Overflows.unique {other : Nat} (overflows : chart.Overflows limit column)
    (otherOverflows : chart.Overflows limit other) : other = column := by
  rcases Nat.lt_trichotomy other column with earlier | same | later
  · exact absurd (overflows.first earlier) (Nat.not_le_of_lt otherOverflows.large)
  · exact same
  · exact absurd (otherOverflows.first later) (Nat.not_le_of_lt overflows.large)

namespace Continues

theorem refl (chart : Chart) : chart.Continues chart :=
  ⟨fun _ => rfl, fun _ found => ⟨_, found, .refl _⟩⟩

/-- Every column is there still, with its items in front. -/
theorem grown {found : Column} (continues : first.Continues second)
    (present : first.column? column = some found) :
    ∃ grown, second.column? column = some grown ∧ found.Continues grown := by
  have inside : column < first.size := (Array.getElem?_eq_some_iff.mp present).1
  by_cases last : column + 1 = first.size
  · exact continues.last last present
  · exact ⟨found, (continues.closed (by omega)).trans present, .refl found⟩

theorem size_le (continues : first.Continues second) : first.size ≤ second.size := by
  apply Nat.le_of_not_lt
  intro shrinks
  obtain ⟨found, present⟩ := exists_column shrinks
  obtain ⟨grown, grownPresent, _⟩ := continues.grown present
  have inside : second.size < second.size := (Array.getElem?_eq_some_iff.mp grownPresent).1
  exact Nat.lt_irrefl _ inside

theorem trans (former : first.Continues second) (latter : second.Continues third) :
    first.Continues third where
  closed := by
    intro column inside
    have sizes := former.size_le
    rw [latter.closed (by omega), former.closed inside]
  last := by
    intro column found _ present
    obtain ⟨middle, middlePresent, continued⟩ := former.grown present
    obtain ⟨grown, grownPresent, continuedFurther⟩ := latter.grown middlePresent
    exact ⟨grown, grownPresent, continued.trans continuedFurther⟩

end Continues

theorem Overflows.later (overflows : first.Overflows limit column)
    (continues : first.Continues second) : second.Overflows limit column := by
  obtain ⟨found, present⟩ := exists_of_lt_width overflows.large
  have inside : column < first.size := (Array.getElem?_eq_some_iff.mp present).1
  obtain ⟨grown, grownPresent, continued⟩ := continues.grown present
  constructor
  · have longer := continued.items.length_le
    have large := overflows.large
    rw [width_of_column? present] at large
    rw [width_of_column? grownPresent]
    omega
  · intro earlier before
    have kept := continues.closed (show earlier + 1 < first.size by omega)
    have fits := overflows.first before
    unfold width at fits ⊢
    rw [kept]
    exact fits

/-- What comes behind the items that are kept does not matter to the cut. -/
theorem CutAt.later {cut : Chart} (cutAt : first.CutAt limit column cut)
    (large : limit < first.width column) (continues : first.Continues second) :
    second.CutAt limit column cut := by
  obtain ⟨full, part, fullPresent, partPresent, sameIndex, sameToken, items⟩ := cutAt.last
  have inside : column < first.size := (Array.getElem?_eq_some_iff.mp fullPresent).1
  refine ⟨cutAt.size, ?_, ?_⟩
  · intro earlier before
    rw [cutAt.before before, continues.closed (by omega)]
  · obtain ⟨grown, grownPresent, continued⟩ := continues.grown fullPresent
    obtain ⟨further, together⟩ := continued.items
    rw [width_of_column? fullPresent] at large
    refine ⟨grown, part, grownPresent, partPresent, sameIndex.trans continued.index.symm,
      sameToken.trans continued.token.symm, ?_⟩
    rw [items, ← together, List.take_append_of_le_length large]

/-- A chart that has just become too large is its own cut. -/
theorem cutAt_self (size : chart.size = column + 1) (width : chart.width column = limit + 1) :
    chart.CutAt limit column chart := by
  obtain ⟨found, present⟩ := exists_column (show column < chart.size by omega)
  refine ⟨size, fun _ => rfl, found, found, present, present, rfl, rfl, ?_⟩
  rw [← width, width_of_column? present, List.take_length]

end Chart

theorem ParseState.Extends.chart_continues {column : Nat} {before after : ParseState}
    (grown : before.Extends column after) (size : before.chart.size ≤ column + 1) :
    before.chart.Continues after.chart where
  closed inside := grown.elsewhere (by omega)
  last := by
    intro other found last present
    by_cases same : other = column
    · subst same
      exact grown.continues present
    · exact ⟨found, (grown.elsewhere same).trans present, .refl found⟩

namespace Engine

variable {α β : Type} {limit column : Nat}

/-- The outcome of a limited step beside that of the full one. -/
structure Truncated (limit : Nat) (full limited : EStateM.Result ParseError ParseState α) :
    Prop where
  fits : (endState full).chart.Fits limit → limited = full
  cuts : ∀ {column}, (endState full).chart.Overflows limit column →
    ∃ state, limited = .error (.columnTooLarge column (limit + 1) limit) state ∧
      (endState full).chart.CutAt limit column state.chart

theorem truncated_refl {outcome : EStateM.Result ParseError ParseState α}
    (fits : (endState outcome).chart.Fits limit) : Truncated limit outcome outcome :=
  ⟨fun _ => rfl, fun {column} overflows =>
    absurd (fits column) (Nat.not_le_of_lt overflows.large)⟩

/-- Two steps one after the other. Once the first has overflowed, the second only adds behind. -/
theorem truncated_bind {full limited : Engine α} {rest restLimited : α → Engine β}
    {state : ParseState} (first : Truncated limit (full state) (limited state))
    (next : ∀ value middle, full state = .ok value middle → middle.chart.Fits limit →
      Truncated limit (rest value middle) (restLimited value middle))
    (later : ∀ value middle, full state = .ok value middle →
      middle.chart.Continues (endState (rest value middle)).chart) :
    Truncated limit ((full >>= rest) state) ((limited >>= restLimited) state) := by
  simp only [Bind.bind, EStateM.bind]
  cases outcome : full state with
  | error error middle =>
      rw [outcome] at first
      constructor
      · intro fits
        rw [first.fits fits]
      · intro column overflows
        obtain ⟨cut, stopped, cutAt⟩ := first.cuts overflows
        exact ⟨cut, by rw [stopped], cutAt⟩
  | ok value middle =>
      rw [outcome] at first
      by_cases fits : middle.chart.Fits limit
      · rw [first.fits fits]
        exact next value middle outcome fits
      · obtain ⟨column, overflows⟩ := Chart.exists_overflows fits
        obtain ⟨cut, stopped, cutAt⟩ := first.cuts overflows
        have continues := later value middle outcome
        have overflowsLater := overflows.later continues
        rw [stopped]
        constructor
        · intro fitsLater
          exact absurd (fitsLater column) (Nat.not_le_of_lt overflowsLater.large)
        · intro other otherOverflows
          obtain rfl := overflowsLater.unique otherOverflows
          exact ⟨cut, rfl, cutAt.later overflows.large continues⟩

/-- From every state whose columns fit, the last column being the one that the step works on or the
one before it, the limited step is the full one cut short. -/
structure Truncating (limit column : Nat) (full limited : Engine α) : Prop where
  extending : Extending column full
  truncated : ∀ state : ParseState, state.chart.size ≤ column + 1 → state.chart.Fits limit →
    Truncated limit (full state) (limited state)

/-- A step that leaves the chart as it is. -/
theorem truncating_of_still {step : Engine α} (extending : Extending column step)
    (still : ∀ state, (endState (step state)).chart = state.chart) :
    Truncating limit column step step := by
  refine ⟨extending, ?_⟩
  intro state _ fits
  rw [← still state] at fits
  exact truncated_refl fits

theorem truncating_pure (value : α) : Truncating limit column (pure value) (pure value) :=
  truncating_of_still (extending_pure value) fun _ => rfl

theorem truncating_throw (error : ParseError) :
    Truncating limit column (throw error : Engine α) (throw error) :=
  truncating_of_still (extending_throw error) fun _ => rfl

theorem truncating_getChart : Truncating limit column getChart getChart :=
  truncating_of_still extending_getChart fun _ => rfl

theorem Truncating.bind {full limited : Engine α} {rest restLimited : α → Engine β}
    (first : Truncating limit column full limited)
    (next : ∀ value, Truncating limit column (rest value) (restLimited value)) :
    Truncating limit column (full >>= rest) (limited >>= restLimited) := by
  refine ⟨first.extending.bind fun value => (next value).extending, ?_⟩
  intro state size fits
  have sizeAfter (value : α) (middle : ParseState) (outcome : full state = .ok value middle) :
      middle.chart.size ≤ column + 1 := by
    have grown := first.extending state
    rw [outcome] at grown
    have bounded : middle.chart.size ≤ _ := grown.le_size
    omega
  refine truncated_bind (first.truncated state size fits) ?_ ?_
  · intro value middle outcome fitsMiddle
    exact (next value).truncated middle (sizeAfter value middle outcome) fitsMiddle
  · intro value middle outcome
    exact ((next value).extending middle).chart_continues (sizeAfter value middle outcome)

theorem truncating_ite {condition : Prop} [Decidable condition]
    {yes no yesLimited noLimited : Engine α} (ifYes : Truncating limit column yes yesLimited)
    (ifNo : Truncating limit column no noLimited) :
    Truncating limit column (if condition then yes else no)
      (if condition then yesLimited else noLimited) := by
  split
  · exact ifYes
  · exact ifNo

theorem truncating_forM {elements : List β} {full limited : β → Engine Unit}
    (round : ∀ element, Truncating limit column (full element) (limited element)) :
    Truncating limit column (elements.forM full) (elements.forM limited) := by
  induction elements with
  | nil => exact truncating_pure ()
  | cons element rest inductionHypothesis =>
      exact (round element).bind fun _ => inductionHypothesis

section Operations

variable {grammar : Grammar} {limits : Limits}

/-- An insertion that adds nothing does not look at the limit. -/
theorem insert_of_unchanged {chart : Chart} {item : Item} {token : Option Token}
    {result : Except ChartFault Insertion} (ambiguities : Nat)
    (unchanged : chart.insert column item token = (chart, result))
    (nothing : ∀ place, result ≠ .ok (.added place)) :
    ∃ outcome, (endState outcome).chart = chart ∧
      ∀ limits, insert limits column item token ⟨chart, ambiguities⟩ = outcome := by
  simp only [insert, Bind.bind, EStateM.bind, place, unchanged]
  cases result with
  | error fault => exact ⟨_, rfl, fun _ => rfl⟩
  | ok insertion =>
      cases insertion with
      | duplicate place => exact ⟨_, rfl, fun _ => rfl⟩
      | added place => exact absurd rfl (nothing place)

/-- An insertion that adds an item looks at its place. -/
theorem insert_of_added {chart : Chart} {item : Item} {token : Option Token} (ambiguities : Nat)
    (added : chart.insert column item token =
      (chart.add column item token, .ok (.added ⟨column, chart.width column⟩))) :
    insert limits column item token ⟨chart, ambiguities⟩ =
      if limits.maxItems ≠ 0 ∧ limits.maxItems ≤ chart.width column then
        .error (.columnTooLarge column (chart.width column + 1) limits.maxItems)
          ⟨chart.add column item token, ambiguities⟩
      else .ok () ⟨chart.add column item token, ambiguities⟩ := by
  simp only [insert, Bind.bind, EStateM.bind, place, added]
  split <;> rfl

theorem width_add {chart : Chart} {item : Item} {token : Option Token}
    (reached : column ≤ chart.size) (other : Nat) :
    (chart.add column item token).width other =
      if other = column then chart.width column + 1 else chart.width other := by
  split
  next same =>
    subst same
    rw [Chart.width_of_column? (Chart.column?_add_self reached)]
    cases present : chart.column? other with
    | none => simp [Chart.width, present, Column.push, Column.empty]
    | some found => simp [Chart.width, present, Column.push]
  next different => simp only [Chart.width, Chart.column?_add_of_ne different]

theorem truncating_insert (positive : 1 ≤ limit) (item : Item) (token : Option Token) :
    Truncating limit column (insert (limits.withItems 0) column item token)
      (insert (limits.withItems limit) column item token) := by
  refine ⟨extending_insert item token, ?_⟩
  intro state size fits
  obtain ⟨chart, ambiguities⟩ := state
  rcases chart.insert_cases column item token with
    ⟨result, unchanged, nothing⟩ | ⟨_, reached, _, added⟩
  · obtain ⟨outcome, still, same⟩ := insert_of_unchanged ambiguities unchanged nothing
    rw [same, same]
    rw [← still] at fits
    exact truncated_refl fits
  · rw [insert_of_added ambiguities added, insert_of_added ambiguities added,
      if_neg (by simp [Limits.withItems])]
    have widthBefore : chart.width column ≤ limit := fits column
    constructor
    · intro fitsAfter
      have widthAfter : (chart.add column item token).width column ≤ limit := fitsAfter column
      rw [width_add reached, if_pos rfl] at widthAfter
      rw [if_neg (by simp only [Limits.withItems]; omega)]
    · intro other overflows
      have large : limit < (chart.add column item token).width other := overflows.large
      have same : other = column := by
        by_contra different
        rw [width_add reached, if_neg different] at large
        exact absurd (fits other) (Nat.not_le_of_lt large)
      subst same
      rw [width_add reached, if_pos rfl] at large
      have width : chart.width other = limit := by omega
      refine ⟨⟨chart.add other item token, ambiguities⟩, ?_, ?_⟩
      · rw [if_pos (by simp only [Limits.withItems]; omega), width]
        rfl
      · refine Chart.cutAt_self ?_ ?_
        · have bounded : chart.size ≤ other + 1 := size
          change (chart.add other item token).size = other + 1
          rw [Chart.size_add reached]
          omega
        · change (chart.add other item token).width other = limit + 1
          rw [width_add reached, if_pos rfl, width]

theorem truncating_getProduction (id : ProductionId) :
    Truncating limit column (getProduction grammar id) (getProduction grammar id) := by
  unfold getProduction
  split
  · exact truncating_pure _
  · exact truncating_throw _

theorem truncating_advance (positive : 1 ≤ limit) (source : ItemRef) (value : Value)
    (provenance : Provenance) (token : Option Token) :
    Truncating limit column
      (advance grammar (limits.withItems 0) column source value provenance token)
      (advance grammar (limits.withItems limit) column source value provenance token) := by
  refine truncating_getChart.bind fun chart => ?_
  cases chart.item? source with
  | none => exact truncating_throw _
  | some item =>
      refine truncating_getChart.bind fun chart => truncating_ite ?_ ?_
      · exact truncating_of_still extending_countAmbiguity fun _ => rfl
      · exact (truncating_getProduction _).bind fun _ => truncating_insert positive _ _

theorem truncating_predict (positive : 1 ≤ limit) (predictor : ItemRef) (symbol : SymbolId) :
    Truncating limit predictor.column (predict grammar (limits.withItems 0) predictor symbol)
      (predict grammar (limits.withItems limit) predictor symbol) := by
  refine (truncating_forM fun id => ?_).bind fun _ => truncating_ite ?_ (truncating_pure ())
  · refine truncating_getChart.bind fun chart => truncating_ite ?_ (truncating_pure ())
    exact (truncating_getProduction _).bind fun _ => truncating_insert positive _ _
  · exact truncating_getChart.bind fun chart =>
      truncating_forM fun pair => truncating_advance positive _ _ _ _

theorem truncating_complete (positive : 1 ≤ limit) (child : ItemRef) (symbol : SymbolId)
    (origin : Nat) (value : Value) :
    Truncating limit child.column
      (complete grammar (limits.withItems 0) child symbol origin value)
      (complete grammar (limits.withItems limit) child symbol origin value) := by
  refine truncating_getChart.bind fun chart => ?_
  cases chart.column? origin with
  | none => exact truncating_throw _
  | some found => exact truncating_forM fun parent => truncating_advance positive _ _ _ _

theorem truncating_process (positive : 1 ≤ limit) (place : ItemRef) (item : Item) :
    Truncating limit place.column (process grammar (limits.withItems 0) place item)
      (process grammar (limits.withItems limit) place item) := by
  unfold process
  cases item.next? grammar with
  | some symbol => exact truncating_ite (truncating_predict positive _ _) (truncating_pure ())
  | none =>
      refine (truncating_getProduction _).bind fun production => ?_
      cases item.value? with
      | none => exact truncating_throw _
      | some value => exact truncating_complete positive _ _ _ _

theorem truncating_closeFrom (positive : 1 ≤ limit) (bound next : Nat) :
    Truncating limit column (closeFrom grammar (limits.withItems 0) column bound next)
      (closeFrom grammar (limits.withItems limit) column bound next) := by
  induction bound generalizing next with
  | zero => exact truncating_pure ()
  | succ bound inductionHypothesis =>
      refine truncating_getChart.bind fun chart => ?_
      cases chart.item? ⟨column, next⟩ with
      | none => exact truncating_pure ()
      | some item =>
          exact (truncating_process positive ⟨column, next⟩ item).bind fun _ =>
            inductionHypothesis _

theorem truncating_closeColumn (positive : 1 ≤ limit) :
    Truncating limit column (closeColumn grammar (limits.withItems 0) column)
      (closeColumn grammar (limits.withItems limit) column) :=
  truncating_closeFrom positive _ _

theorem truncating_scan (positive : 1 ≤ limit) (token : Token) :
    Truncating limit (column + 1) (scan grammar (limits.withItems 0) column token)
      (scan grammar (limits.withItems limit) column token) := by
  unfold scan
  cases grammar.terminal? token.name with
  | none => exact truncating_pure false
  | some terminal =>
      refine truncating_getChart.bind fun chart => ?_
      refine (truncating_forM fun source => truncating_advance positive _ _ _ _).bind fun _ => ?_
      exact truncating_getChart.bind fun _ => truncating_pure _

theorem truncating_consumeFrom (positive : 1 ≤ limit) (token : Token) :
    Truncating limit (column + 1) (consumeFrom grammar (limits.withItems 0) column token)
      (consumeFrom grammar (limits.withItems limit) column token) := by
  refine (truncating_scan positive token).bind fun moved =>
    truncating_ite (truncating_closeColumn positive) ?_
  have diagnosing : Truncating limit (column + 1) (diagnose grammar (limits.withItems 0) token)
      (diagnose grammar (limits.withItems limit) token) := by
    refine truncating_getChart.bind fun chart => ?_
    simp only [Limits.withItems]
    cases Diagnosis.build grammar chart (chart.size - 1) token limits.maxTraces with
    | ok diagnosis => exact truncating_pure _
    | error fault => exact truncating_throw _
  exact diagnosing.bind fun _ => truncating_throw _

end Operations

section Runs

variable {grammar : Grammar} {limits : Limits} {tokens : List Token}

theorem truncated_consume (positive : 1 ≤ limit) (consumed : Nat) (token : Token)
    {state : ParseState} (fits : state.chart.Fits limit) :
    Truncated limit (consume grammar (limits.withItems 0) consumed token state)
      (consume grammar (limits.withItems limit) consumed token state) := by
  rw [consume_eq, consume_eq, Limits.maxTokens_withItems, Limits.maxTokens_withItems]
  by_cases full : limits.maxTokens ≠ 0 ∧ limits.maxTokens ≤ consumed
  · rw [if_pos full, if_pos full]
    exact truncated_refl fits
  · rw [if_neg full, if_neg full]
    exact (truncating_consumeFrom positive token).truncated state (by omega) fits

theorem continues_consumeAll (consumed : Nat) (rest : List Token) (state : ParseState) :
    state.chart.Continues (endState (consumeAll grammar limits consumed rest state)).chart := by
  induction rest generalizing consumed state with
  | nil => exact .refl _
  | cons token rest inductionHypothesis =>
      have grown : state.Extends _ (endState (consume grammar limits consumed token state)) :=
        extends_consume consumed token state
      have first := grown.chart_continues (by omega)
      simp only [consumeAll, Bind.bind, EStateM.bind]
      cases outcome : consume grammar limits consumed token state with
      | error error next =>
          rw [outcome] at first
          exact first
      | ok value next =>
          rw [outcome] at first
          exact first.trans (inductionHypothesis (consumed + 1) next)

theorem truncated_consumeAll (positive : 1 ≤ limit) (consumed : Nat) (rest : List Token)
    {state : ParseState} (fits : state.chart.Fits limit) :
    Truncated limit (consumeAll grammar (limits.withItems 0) consumed rest state)
      (consumeAll grammar (limits.withItems limit) consumed rest state) := by
  induction rest generalizing consumed state with
  | nil => exact truncated_refl fits
  | cons token rest inductionHypothesis =>
      refine truncated_bind (truncated_consume positive consumed token fits) ?_ ?_
      · intro _ next _ fitsNext
        exact inductionHypothesis (consumed + 1) fitsNext
      · intro _ next _
        exact continues_consumeAll (consumed + 1) rest next

theorem fits_seeded (positive : 1 ≤ limit) (item : Item) : (Chart.seeded item).Fits limit := by
  intro column
  cases column with
  | zero => exact positive
  | succ column => exact Nat.zero_le _

theorem truncated_parseAll (positive : 1 ≤ limit) :
    Truncated limit
      (parseAll grammar (limits.withItems 0) tokens ⟨Chart.seeded grammar.seed, 0⟩)
      (parseAll grammar (limits.withItems limit) tokens ⟨Chart.seeded grammar.seed, 0⟩) := by
  have finishing (state : ParseState) : state.chart.Continues
      (endState (finish grammar (limits.withItems 0) state)).chart := by
    rw [endState_finish]
    exact .refl _
  rw [parseAll_eq, parseAll_eq]
  refine truncated_bind ?_ ?_ (fun _ middle _ => finishing middle)
  · refine truncated_bind ((truncating_closeColumn positive).truncated _ (Nat.le_refl _)
      (fits_seeded positive _)) ?_ ?_
    · intro _ middle _ fits
      exact truncated_consumeAll positive 0 tokens fits
    · intro _ middle _
      exact continues_consumeAll 0 tokens middle
  · intro _ middle _ fits
    apply truncated_refl
    rw [endState_finish]
    exact fits

end Runs

end Engine

/-- The columns of a cut, one after the other. -/
theorem Chart.CutAt.columns_eq {limit column : Nat} {whole cut : Chart} {part : Column}
    (cutAt : whole.CutAt limit column cut) (present : cut.column? column = some part) :
    cut.columns.toList = whole.columns.toList.take column ++ [part] := by
  obtain ⟨full, _, fullPresent, _⟩ := cutAt.last
  have inside : column < whole.columns.size := (Array.getElem?_eq_some_iff.mp fullPresent).1
  have counted : (whole.columns.toList.take column).length = column := by simp; omega
  apply List.ext_getElem?
  intro index
  rw [Array.getElem?_toList]
  rcases Nat.lt_trichotomy index column with earlier | rfl | later
  · rw [List.getElem?_append_left (by omega), List.getElem?_take, if_pos earlier,
      Array.getElem?_toList]
    exact cutAt.before earlier
  · rw [List.getElem?_append_right (by omega), counted, Nat.sub_self]
    exact present
  · rw [List.getElem?_eq_none (by simp; omega)]
    exact Chart.column?_eq_none_iff.mpr (by rw [cutAt.size]; omega)

/-- A parse whose columns fit the limit on items is the parse without that limit. -/
theorem Grammar.run_withItems_of_fits (grammar : Grammar) (limits : Limits) (tokens : List Token)
    {limit : Nat} (positive : 1 ≤ limit)
    (fits : ∀ column, (grammar.run (limits.withItems 0) tokens).chart.width column ≤ limit) :
    grammar.run (limits.withItems limit) tokens = grammar.run (limits.withItems 0) tokens := by
  have truncated : Engine.Truncated limit
      (Engine.parseAll grammar (limits.withItems 0) tokens ⟨Chart.seeded grammar.seed, 0⟩)
      (Engine.parseAll grammar (limits.withItems limit) tokens ⟨Chart.seeded grammar.seed, 0⟩) :=
    Engine.truncated_parseAll positive
  rw [Grammar.run_eq_ofOutcome] at fits
  rw [Grammar.run_eq_ofOutcome, Grammar.run_eq_ofOutcome, truncated.fits fits]

/-- Limits that are not reached cut no parse short: there are no more tokens than allowed, and no column
would have more items than allowed if there were no limit on them. -/
theorem Declaration.withinLimits_of_fits {declaration : Declaration} {grammar : Grammar}
    (built : declaration.build = .ok grammar) {limits : Limits} {tokens : List Token}
    (tokensFit : limits.maxTokens = 0 ∨ tokens.length ≤ limits.maxTokens)
    (itemsFit : limits.maxItems = 0 ∨ ∀ column,
      (grammar.run (limits.withItems 0) tokens).chart.width column ≤ limits.maxItems) :
    WithinLimits (grammar.run limits tokens).result := by
  have unlimited : Limits.Allow (limits.withItems 0) tokens.length := ⟨tokensFit, rfl⟩
  have same : grammar.run limits tokens = grammar.run (limits.withItems 0) tokens := by
    by_cases noLimit : limits.maxItems = 0
    · have unchanged : limits.withItems 0 = limits := by
        rw [Limits.withItems, ← noLimit]
      rw [unchanged]
    · exact grammar.run_withItems_of_fits limits tokens (Nat.pos_of_ne_zero noLimit)
        (itemsFit.resolve_left noLimit)
  rw [same]
  exact withinLimits_of_allow built unlimited

/-- The limit on the items of a column only cuts a parse short: where all columns fit it changes
nothing, and otherwise the parse stops in the first column that does not, at the item that is one too
many. -/
theorem Grammar.run_truncates_at_item_limit (grammar : Grammar) (limits : Limits)
    (tokens : List Token) {limit : Nat} (positive : 1 ≤ limit) :
    ((∀ column, (grammar.run (limits.withItems 0) tokens).chart.width column ≤ limit) →
        grammar.run (limits.withItems limit) tokens =
          grammar.run (limits.withItems 0) tokens) ∧
      ∀ column, limit < (grammar.run (limits.withItems 0) tokens).chart.width column →
        (∀ earlier < column,
          (grammar.run (limits.withItems 0) tokens).chart.width earlier ≤ limit) →
        (grammar.run (limits.withItems limit) tokens).result =
            .error (.columnTooLarge column (limit + 1) limit) ∧
          ∃ whole part,
            (grammar.run (limits.withItems 0) tokens).chart.column? column = some whole ∧
            (grammar.run (limits.withItems limit) tokens).chart.columns.toList =
              (grammar.run (limits.withItems 0) tokens).chart.columns.toList.take column ++ [part] ∧
            part.index = whole.index ∧ part.token = whole.token ∧
            part.items.toList = whole.items.toList.take (limit + 1) := by
  have truncated : Engine.Truncated limit
      (Engine.parseAll grammar (limits.withItems 0) tokens ⟨Chart.seeded grammar.seed, 0⟩)
      (Engine.parseAll grammar (limits.withItems limit) tokens ⟨Chart.seeded grammar.seed, 0⟩) :=
    Engine.truncated_parseAll positive
  refine ⟨grammar.run_withItems_of_fits limits tokens positive, ?_⟩
  rw [Grammar.run_eq_ofOutcome, Grammar.run_eq_ofOutcome]
  intro column large first
  obtain ⟨cut, stopped, cutAt⟩ := truncated.cuts ⟨large, fun {earlier} before =>
    first earlier before⟩
  obtain ⟨whole, part, wholePresent, partPresent, sameIndex, sameToken, items⟩ := cutAt.last
  rw [stopped]
  exact ⟨rfl, whole, part, wholePresent, cutAt.columns_eq partPresent, sameIndex, sameToken,
    items⟩

theorem Grammar.openSum_truncates_in_last_column :
    ((Declaration.sums.grammar "sum").run { maxItems := 6 } Declaration.openSum).result =
      .error (.columnTooLarge 2 7 6) := by
  have truncates := (Declaration.sums.grammar "sum").run_truncates_at_item_limit {}
    Declaration.openSum (show 1 ≤ 6 by decide)
  have large : 6 < ((Declaration.sums.grammar "sum").run (Limits.withItems {} 0)
      Declaration.openSum).chart.width 2 := by
    decide +kernel
  have fits : ∀ earlier < 2, ((Declaration.sums.grammar "sum").run (Limits.withItems {} 0)
      Declaration.openSum).chart.width earlier ≤ 6 := by
    decide +kernel
  exact (truncates.2 2 large fits).1

end EarleyChart
