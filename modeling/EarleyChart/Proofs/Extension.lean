import EarleyChart.Parse.Run
import EarleyChart.Proofs.Ending
import EarleyChart.Proofs.Growth

/-!
Contract: the part of a chart that a step leaves alone.

A step that works on a column leaves every other column as it is, keys included, and only adds items
behind those of its own column; the count of dropped derivations never falls. `Engine.Extending` says
this of a step from any state, whether the step returns or stops, and asks nothing of the grammar or
the chart. A token therefore leaves all columns as they are that were there before it
(`extends_consume`).
-/

namespace EarleyChart

/-- A column of the same place and token, whose items begin with those of the former one. -/
structure Column.Continues (before after : Column) : Prop where
  index : after.index = before.index
  token : after.token = before.token
  items : before.items.toList <+: after.items.toList

theorem Column.Continues.refl (column : Column) : column.Continues column :=
  ⟨rfl, rfl, List.prefix_refl _⟩

theorem Column.Continues.trans {first second third : Column} (former : first.Continues second)
    (latter : second.Continues third) : first.Continues third :=
  ⟨latter.index.trans former.index, latter.token.trans former.token,
    former.items.trans latter.items⟩

theorem Column.continues_push (column : Column) (item : Item) :
    column.Continues (column.push item) :=
  ⟨rfl, rfl, by simp [Column.push]⟩

/-- One column has grown at its end, and nothing else has changed but for derivations that were
dropped. -/
structure ParseState.Extends (column : Nat) (before after : ParseState) : Prop where
  elsewhere : ∀ {other}, other ≠ column → after.chart.column? other = before.chart.column? other
  continues : ∀ {found}, before.chart.column? column = some found →
    ∃ grown, after.chart.column? column = some grown ∧ found.Continues grown
  ambiguities : before.ambiguities ≤ after.ambiguities

namespace ParseState.Extends

variable {column : Nat} {first second third : ParseState}

theorem refl (state : ParseState) : state.Extends column state :=
  ⟨fun _ => rfl, fun found => ⟨_, found, .refl _⟩, Nat.le_refl _⟩

theorem trans (former : first.Extends column second) (latter : second.Extends column third) :
    first.Extends column third where
  elsewhere different := (latter.elsewhere different).trans (former.elsewhere different)
  continues := by
    intro found present
    obtain ⟨middle, middlePresent, continued⟩ := former.continues present
    obtain ⟨grown, grownPresent, continuedFurther⟩ := latter.continues middlePresent
    exact ⟨grown, grownPresent, continued.trans continuedFurther⟩
  ambiguities := Nat.le_trans former.ambiguities latter.ambiguities

theorem size_le (grown : first.Extends column second) : first.chart.size ≤ second.chart.size := by
  apply Nat.le_of_not_lt
  intro shrinks
  have outside : second.chart.column? second.chart.size = none :=
    Chart.column?_eq_none_iff.mpr (Nat.le_refl _)
  obtain ⟨found, present⟩ := Chart.exists_column shrinks
  by_cases same : second.chart.size = column
  · subst same
    obtain ⟨_, grownPresent, _⟩ := grown.continues present
    rw [outside] at grownPresent
    contradiction
  · rw [grown.elsewhere same, present] at outside
    contradiction

theorem le_size (grown : first.Extends column second) :
    second.chart.size ≤ max first.chart.size (column + 1) := by
  apply Nat.le_of_not_lt
  intro longer
  obtain ⟨found, present⟩ := Chart.exists_column longer
  rw [grown.elsewhere (by omega)] at present
  have inside : _ < first.chart.size := (Array.getElem?_eq_some_iff.mp present).1
  omega

theorem add {item : Item} {token : Option Token} (reached : column ≤ first.chart.size) :
    first.Extends column { first with chart := first.chart.add column item token } where
  elsewhere different := Chart.column?_add_of_ne different
  continues := by
    intro found present
    refine ⟨found.push item, ?_, found.continues_push item⟩
    change (first.chart.add column item token).column? column = _
    rw [Chart.column?_add_self reached, present]
    rfl
  ambiguities := Nat.le_refl _

end ParseState.Extends

namespace Engine

variable {α β : Type}

/-- The state that a step ends in, whether it returns or stops. -/
def endState : EStateM.Result ParseError ParseState α → ParseState
  | .ok _ state => state
  | .error _ state => state

/-- From every state a step extends one column. -/
def Extending (column : Nat) (step : Engine α) : Prop :=
  ∀ state : ParseState, state.Extends column (endState (step state))

variable {column : Nat} {grammar : Grammar} {limits : Limits}

theorem extending_pure (value : α) : Extending column (pure value) :=
  fun state => .refl state

theorem extending_throw (error : ParseError) : Extending column (throw error : Engine α) :=
  fun state => .refl state

theorem extending_getChart : Extending column getChart :=
  fun state => .refl state

theorem Extending.bind {step : Engine α} {rest : α → Engine β} (first : Extending column step)
    (next : ∀ value, Extending column (rest value)) : Extending column (step >>= rest) := by
  intro state
  have reached := first state
  simp only [Bind.bind, EStateM.bind]
  cases outcome : step state with
  | ok value middle =>
      rw [outcome] at reached
      exact reached.trans (next value middle)
  | error error middle =>
      rw [outcome] at reached
      exact reached

theorem extending_ite {condition : Prop} [Decidable condition] {yes no : Engine α}
    (ifYes : Extending column yes) (ifNo : Extending column no) :
    Extending column (if condition then yes else no) := by
  split
  · exact ifYes
  · exact ifNo

theorem extending_forM {elements : List β} {step : β → Engine Unit}
    (round : ∀ element, Extending column (step element)) :
    Extending column (elements.forM step) := by
  induction elements with
  | nil => exact extending_pure ()
  | cons element rest inductionHypothesis =>
      exact (round element).bind fun _ => inductionHypothesis

theorem extending_place (item : Item) (token : Option Token) :
    Extending column (place column item token) := by
  intro state
  obtain ⟨chart, ambiguities⟩ := state
  rcases chart.insert_cases column item token with ⟨result, unchanged, _⟩ | ⟨_, reached, _, added⟩
  · simp only [place, unchanged]
    cases result <;> exact .refl _
  · simp only [place, added]
    exact .add reached

theorem extending_insert (item : Item) (token : Option Token) :
    Extending column (insert limits column item token) := by
  refine (extending_place item token).bind fun insertion => ?_
  cases insertion with
  | duplicate => exact extending_pure ()
  | added => exact extending_ite (extending_throw _) (extending_pure ())

theorem extending_getProduction (id : ProductionId) :
    Extending column (getProduction grammar id) := by
  unfold getProduction
  split
  · exact extending_pure _
  · exact extending_throw _

theorem extending_countAmbiguity : Extending column countAmbiguity :=
  fun _ => ⟨fun _ => rfl, fun found => ⟨_, found, .refl _⟩, Nat.le_succ _⟩

theorem extending_advance (source : ItemRef) (value : Value) (provenance : Provenance)
    (token : Option Token) :
    Extending column (advance grammar limits column source value provenance token) := by
  refine extending_getChart.bind fun chart => ?_
  cases chart.item? source with
  | none => exact extending_throw _
  | some item =>
      refine extending_getChart.bind fun chart => extending_ite extending_countAmbiguity ?_
      exact (extending_getProduction _).bind fun _ => extending_insert _ _

theorem extending_predict (predictor : ItemRef) (symbol : SymbolId) :
    Extending predictor.column (predict grammar limits predictor symbol) := by
  refine (extending_forM fun id => ?_).bind fun _ => extending_ite ?_ (extending_pure ())
  · refine extending_getChart.bind fun chart => extending_ite ?_ (extending_pure ())
    exact (extending_getProduction _).bind fun _ => extending_insert _ _
  · exact extending_getChart.bind fun chart =>
      extending_forM fun pair => extending_advance _ _ _ _

theorem extending_complete (child : ItemRef) (symbol : SymbolId) (origin : Nat) (value : Value) :
    Extending child.column (complete grammar limits child symbol origin value) := by
  refine extending_getChart.bind fun chart => ?_
  cases chart.column? origin with
  | none => exact extending_throw _
  | some found => exact extending_forM fun parent => extending_advance _ _ _ _

theorem extending_process (place : ItemRef) (item : Item) :
    Extending place.column (process grammar limits place item) := by
  unfold process
  cases item.next? grammar with
  | some symbol => exact extending_ite (extending_predict _ _) (extending_pure ())
  | none =>
      refine (extending_getProduction _).bind fun production => ?_
      cases item.value? with
      | none => exact extending_throw _
      | some value => exact extending_complete _ _ _ _

theorem extending_closeFrom (bound next : Nat) :
    Extending column (closeFrom grammar limits column bound next) := by
  induction bound generalizing next with
  | zero => exact extending_pure ()
  | succ bound inductionHypothesis =>
      refine extending_getChart.bind fun chart => ?_
      cases chart.item? ⟨column, next⟩ with
      | none => exact extending_pure ()
      | some item =>
          exact (extending_process ⟨column, next⟩ item).bind fun _ => inductionHypothesis _

theorem extending_closeColumn : Extending column (closeColumn grammar limits column) :=
  extending_closeFrom _ _

theorem extending_scan (token : Token) :
    Extending (column + 1) (scan grammar limits column token) := by
  unfold scan
  cases grammar.terminal? token.name with
  | none => exact extending_pure false
  | some terminal =>
      refine extending_getChart.bind fun chart => ?_
      refine (extending_forM fun source => extending_advance _ _ _ _).bind fun _ => ?_
      exact extending_getChart.bind fun _ => extending_pure _

theorem extending_diagnose (token : Token) :
    Extending column (diagnose grammar limits token) := by
  refine extending_getChart.bind fun chart => ?_
  cases Diagnosis.build grammar chart (chart.size - 1) token limits.maxTraces with
  | ok diagnosis => exact extending_pure _
  | error fault => exact extending_throw _

/-- Consumption of a token by the column with a number. -/
def consumeFrom (grammar : Grammar) (limits : Limits) (column : Nat) (token : Token) :
    Engine Unit := do
  if ← scan grammar limits column token then
    closeColumn grammar limits (column + 1)
  else
    throw (.unexpectedToken (← diagnose grammar limits token))

/-- A token is consumed by the last column, unless there are too many tokens. -/
theorem consume_eq (consumed : Nat) (token : Token) (state : ParseState) :
    consume grammar limits consumed token state =
      if limits.maxTokens ≠ 0 ∧ limits.maxTokens ≤ consumed then
        .error (.inputTooLarge (consumed + 1) limits.maxTokens) state
      else consumeFrom grammar limits (state.chart.size - 1) token state := by
  unfold consume
  split <;> rfl

theorem extending_consumeFrom (token : Token) :
    Extending (column + 1) (consumeFrom grammar limits column token) := by
  refine (extending_scan token).bind fun moved => extending_ite extending_closeColumn ?_
  exact (extending_diagnose token).bind fun _ => extending_throw _

/-- A token only adds to the column after the last one. -/
theorem extends_consume (consumed : Nat) (token : Token) (state : ParseState) :
    state.Extends (state.chart.size - 1 + 1)
      (endState (consume grammar limits consumed token state)) := by
  rw [consume_eq]
  split
  · exact .refl _
  · exact extending_consumeFrom token state

theorem ends_diagnose_still (token : Token) (state : ParseState) :
    Ends (diagnose grammar limits token) state (fun _ next => next = state)
      (fun _ next => next = state) := by
  unfold diagnose
  rw [ends_bind, ends_getChart]
  cases Diagnosis.build grammar state.chart (state.chart.size - 1) token limits.maxTraces <;> rfl

/-- The end of a parse changes nothing. -/
theorem ends_finish_still (state : ParseState) :
    Ends (finish grammar limits) state (fun _ next => next = state)
      (fun _ next => next = state) := by
  unfold finish
  rw [ends_bind, ends_getChart]
  cases accepted? grammar state.chart with
  | some value => rfl
  | none =>
      dsimp only
      rw [ends_bind]
      exact (ends_diagnose_still _ state).mono (fun _ _ same => same) (fun _ _ same => same)

theorem endState_finish (state : ParseState) :
    endState (finish grammar limits state) = state := by
  have still : Ends (finish grammar limits) state _ _ := ends_finish_still state
  unfold Ends at still
  split at still
  next outcome => rw [outcome]; exact still
  next outcome => rw [outcome]; exact still

end Engine

end EarleyChart
