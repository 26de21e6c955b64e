import EarleyChart.Proofs.Correctness
import EarleyChart.Proofs.Extension

/-!
Contract: closing a column comes to an end of its own.

The loop that closes a column goes on over items that its own rounds add. `Engine.Exhausts` is this
loop without any bound: it ends where there is no next item, and only there. The bound that
`Engine.closeColumn` carries is never what stops it (`ends_closeColumn_exhausts`), for the items of a
column have distinct keys and the keys are limited.

`Engine.Entered` are the states from which a parse closes its columns, one column after the other.
`Declaration.run_exhausts_columns` says that the loop ends in each of them and that the columns of a
chart are what it leaves.
-/

namespace EarleyChart

namespace Engine

variable {grammar : Grammar} {tokens : List Token} {limits : Limits} {column : Nat}
  {state : ParseState}

/-- What a step ends in, together with the fact that it does. -/
theorem Ends.remember {α : Type} {step : Engine α} {done : α → ParseState → Prop}
    {stopped : ParseError → ParseState → Prop} (ends : Ends step state done stopped) :
    Ends step state (fun value next => step state = .ok value next ∧ done value next)
      (fun error next => step state = .error error next ∧ stopped error next) := by
  unfold Ends at ends ⊢
  cases outcome : step state with
  | ok value next =>
      rw [outcome] at ends
      exact ⟨rfl, ends⟩
  | error error next =>
      rw [outcome] at ends
      exact ⟨rfl, ends⟩

/-- The loop over the items of a column from the place `next` on, with no bound on its rounds: an item
is processed as long as there is one. -/
inductive Exhausts (grammar : Grammar) (limits : Limits) (column : Nat) :
    (next : Nat) → ParseState → ParseState → Prop where
  | finished {next : Nat} {state : ParseState} (ended : state.chart.item? ⟨column, next⟩ = none) :
      Exhausts grammar limits column next state state
  | round {next : Nat} {item : Item} {state middle closed : ParseState}
      (present : state.chart.item? ⟨column, next⟩ = some item)
      (processed : process grammar limits ⟨column, next⟩ item state = .ok () middle)
      (others : Exhausts grammar limits column (next + 1) middle closed) :
      Exhausts grammar limits column next state closed

section Loop

/-- The rounds that the budget of a column allows take the loop to the end of the column. -/
theorem ends_closeFrom_exhausts (consistent : grammar.Consistent) (unlimited : limits.maxItems = 0)
    (bound next : Nat) (coherent : Coherent grammar tokens state.chart)
    (enough : itemBudget grammar column < next + bound) :
    Ends (closeFrom grammar limits column bound next) state
      (fun _ closed => Exhausts grammar limits column next state closed) (fun _ _ => False) := by
  induction bound generalizing next state with
  | zero =>
      apply Exhausts.finished
      by_contra more
      obtain ⟨item, present⟩ := Option.ne_none_iff_exists'.mp more
      -- An item past the budget would be one more than the column can hold.
      have below : next < state.chart.width column := Chart.index_lt_width_iff.mpr ⟨item, present⟩
      have fits := width_le_itemBudget consistent coherent column
      omega
  | succ bound inductionHypothesis =>
      unfold closeFrom
      rw [ends_bind, ends_getChart]
      cases present : state.chart.item? ⟨column, next⟩ with
      | none => exact .finished present
      | some item =>
          dsimp only
          rw [ends_bind]
          refine (ends_process consistent coherent present).remember.mono ?_
            (fun _ _ overflow => overflow.2.limited unlimited)
          intro _ middle processed
          obtain ⟨outcome, progress, _⟩ := processed
          refine (inductionHypothesis (next + 1) progress.coherent (by omega)).mono ?_
            (fun _ _ stops => stops)
          intro _ closed others
          exact .round present outcome others

theorem ends_closeColumn_exhausts (consistent : grammar.Consistent)
    (unlimited : limits.maxItems = 0) (coherent : Coherent grammar tokens state.chart) :
    Ends (closeColumn grammar limits column) state
      (fun _ closed => Exhausts grammar limits column 0 state closed) (fun _ _ => False) :=
  ends_closeFrom_exhausts consistent unlimited _ 0 coherent (by omega)

end Loop

/-- The states from which a parse closes its columns: the first one with the start production alone,
each further one with what has moved over a token from the closed column before it. -/
inductive Entered (grammar : Grammar) (limits : Limits) (tokens : List Token) :
    (column : Nat) → ParseState → Prop where
  | first : Entered grammar limits tokens 0 ⟨Chart.seeded grammar.seed, 0⟩
  | next {column : Nat} {state closed scanned : ParseState} {token : Token}
      (entered : Entered grammar limits tokens column state)
      (closes : closeColumn grammar limits column state = .ok () closed)
      (read : tokens[column]? = some token)
      (room : ¬ (limits.maxTokens ≠ 0 ∧ limits.maxTokens ≤ column))
      (moves : scan grammar limits column token closed = .ok true scanned) :
      Entered grammar limits tokens (column + 1) scanned

section Columns

variable {closed : ParseState} {consumed : Nat} {token : Token}

/-- Scanning that leads to a next column, and what it leads to. -/
theorem scanned_of_moves {scanned : ParseState} (consistent : grammar.Consistent)
    (ready : Ready grammar tokens state.chart consumed)
    (read : tokens[consumed]? = some token)
    (moves : scan grammar limits consumed token state = .ok true scanned) :
    Progress grammar tokens (consumed + 1) state scanned ∧
      scanned.chart.size = consumed + 2 ∧ Scanned grammar scanned.chart consumed token := by
  have ends : Ends (scan grammar limits consumed token) state _ _ :=
    ends_scan consistent ready.coherent ready.size read
  unfold Ends at ends
  rw [moves] at ends
  exact ends

/-- The parse is ready for the next token when it has closed a column that it has entered. -/
theorem Entered.ready (consistent : grammar.Consistent) (unlimited : limits.maxItems = 0)
    (entered : Entered grammar limits tokens column state) :
    Coherent grammar tokens state.chart ∧
      Ends (closeColumn grammar limits column) state
        (fun _ closed => Ready grammar tokens closed.chart column) (fun _ _ => False) := by
  induction entered with
  | first =>
      have coherent : Coherent grammar tokens (ParseState.mk (Chart.seeded grammar.seed) 0).chart :=
        coherent_seeded grammar tokens
      refine ⟨coherent, (ends_closeColumn consistent coherent).mono ?_
        (fun _ _ overflow => overflow.limited unlimited)⟩
      intro _ closed closing
      exact ready_of_seeded closing.1 closing.2
  | next _ closes read _ moves inductionHypothesis =>
      have ready := inductionHypothesis.2
      unfold Ends at ready
      rw [closes] at ready
      obtain ⟨progress, size, scanned⟩ := scanned_of_moves consistent ready read moves
      refine ⟨progress.coherent, (ends_closeColumn consistent progress.coherent).mono ?_
        (fun _ _ overflow => overflow.limited unlimited)⟩
      intro _ closed closing
      exact ready_of_closed consistent ready read progress size scanned closing.1 closing.2

/-- The columns of a chart hold what closing them has left. -/
def ClosedColumns (grammar : Grammar) (limits : Limits) (tokens : List Token) (chart : Chart) :
    Prop :=
  ∀ column < chart.size, ∃ state closed, Entered grammar limits tokens column state ∧
    closeColumn grammar limits column state = .ok () closed ∧
    ∀ index, chart.item? ⟨column, index⟩ = closed.chart.item? ⟨column, index⟩

/-- A state that closing a column has left, after all the columns before it. -/
structure Closed (grammar : Grammar) (limits : Limits) (tokens : List Token) (column : Nat)
    (state : ParseState) : Prop where
  ready : Ready grammar tokens state.chart column
  last : ∃ entered, Entered grammar limits tokens column entered ∧
    closeColumn grammar limits column entered = .ok () state
  columns : ClosedColumns grammar limits tokens state.chart

/-- Columns stay as they are while later ones grow. -/
theorem ClosedColumns.grows {before after : Chart} (kept : ClosedColumns grammar limits tokens before)
    (grows : before.Grows before.size after) (earlier : column < before.size) :
    ∃ state closed, Entered grammar limits tokens column state ∧
      closeColumn grammar limits column state = .ok () closed ∧
      ∀ index, after.item? ⟨column, index⟩ = closed.chart.item? ⟨column, index⟩ := by
  obtain ⟨state, closed, entered, closes, same⟩ := kept column earlier
  refine ⟨state, closed, entered, closes, ?_⟩
  intro index
  rw [← same index]
  exact grows.elsewhere (Nat.ne_of_lt earlier)

/-- One token: one more column has been closed, or the parse stops and leaves the columns alone. -/
theorem ends_consume_closed (consistent : grammar.Consistent) (unlimited : limits.maxItems = 0)
    (former : Closed grammar limits tokens consumed state)
    (read : tokens[consumed]? = some token) :
    Ends (consume grammar limits consumed token) state
      (fun _ next => Closed grammar limits tokens (consumed + 1) next)
      (fun _ next => ClosedColumns grammar limits tokens next.chart) := by
  have ready := former.ready
  unfold consume
  by_cases full : limits.maxTokens ≠ 0 ∧ limits.maxTokens ≤ consumed
  · rw [if_pos full]
    exact former.columns
  · rw [if_neg full, ends_bind, ends_getChart]
    dsimp only
    rw [ready.size_sub_one, ends_bind]
    refine (ends_scan consistent ready.coherent ready.size read).remember.mono ?_
      (fun _ _ overflow => absurd unlimited overflow.2.limited)
    intro moved scannedState scanning
    obtain ⟨moves, progress, outcome⟩ := scanning
    rw [ends_ite]
    cases moved with
    | true =>
        obtain ⟨size, scanned⟩ := outcome
        obtain ⟨before, entered, closes⟩ := former.last
        have enteredNext : Entered grammar limits tokens (consumed + 1) scannedState :=
          .next entered closes read full moves
        refine (ends_closeColumn consistent progress.coherent).remember.mono ?_
          (fun _ _ overflow => absurd unlimited overflow.2.limited)
        intro _ closed closing
        obtain ⟨closesNext, closingProgress, settled⟩ := closing
        have readyNext := ready_of_closed consistent ready read progress size scanned
          closingProgress settled
        refine ⟨readyNext, ⟨scannedState, enteredNext, closesNext⟩, ?_⟩
        intro column inside
        by_cases last : column = consumed + 1
        · subst last
          exact ⟨scannedState, closed, enteredNext, closesNext, fun _ => rfl⟩
        · have grows := progress.grows.trans closingProgress.grows
          rw [← ready.size] at grows
          rw [readyNext.size] at inside
          exact former.columns.grows grows (by rw [ready.size]; omega)
    | false =>
        obtain ⟨size, refuses⟩ := outcome
        have readyStill := ready_of_refused consistent ready progress size
        have columns : ClosedColumns grammar limits tokens scannedState.chart := by
          intro column inside
          have grows := progress.grows
          rw [← ready.size] at grows
          exact former.columns.grows grows (by rw [ready.size]; omega)
        rw [if_neg Bool.false_ne_true, ends_bind]
        refine (ends_diagnose consistent readyStill token).mono ?_ (fun _ _ stops => stops)
        intro diagnosis next diagnosed
        rw [diagnosed.1]
        exact columns

theorem ends_consumeAll_closed (consistent : grammar.Consistent) (unlimited : limits.maxItems = 0)
    {rest : List Token} (former : Closed grammar limits tokens consumed state)
    (remaining : tokens.drop consumed = rest) :
    Ends (consumeAll grammar limits consumed rest) state
      (fun _ next => ClosedColumns grammar limits tokens next.chart)
      (fun _ next => ClosedColumns grammar limits tokens next.chart) := by
  refine (ends_consumeAll_of_step (Closed grammar limits tokens) ?_ former remaining).mono
    (fun _ _ later => later.columns) (fun _ _ columns => columns)
  intro consumed token state read closedHere
  exact ends_consume_closed consistent unlimited closedHere read

theorem ends_parseAll_closed (consistent : grammar.Consistent) (unlimited : limits.maxItems = 0) :
    Ends (parseAll grammar limits tokens) ⟨Chart.seeded grammar.seed, 0⟩
      (fun _ next => ClosedColumns grammar limits tokens next.chart)
      (fun _ next => ClosedColumns grammar limits tokens next.chart) := by
  have coherent : Coherent grammar tokens (ParseState.mk (Chart.seeded grammar.seed) 0).chart :=
    coherent_seeded grammar tokens
  unfold parseAll
  rw [ends_bind]
  refine (ends_closeColumn consistent coherent).remember.mono ?_
    (fun _ _ overflow => absurd unlimited overflow.2.limited)
  intro _ closed closing
  obtain ⟨closes, progress, settled⟩ := closing
  have ready := ready_of_seeded progress settled
  have first : Closed grammar limits tokens 0 closed := by
    refine ⟨ready, ⟨_, .first, closes⟩, ?_⟩
    intro column inside
    rw [ready.size] at inside
    obtain rfl := Nat.lt_one_iff.mp inside
    exact ⟨_, closed, .first, closes, fun _ => rfl⟩
  rw [ends_bind]
  refine (ends_consumeAll_closed consistent unlimited first rfl).mono ?_ (fun _ _ columns => columns)
  intro _ consumed columns
  refine (ends_finish_still consumed).mono ?_ ?_
  · intro _ next still
    rw [still]
    exact columns
  · intro _ next still
    rw [still]
    exact columns

end Columns

end Engine

/-- The columns that a parse leaves are those that it has closed. -/
theorem Grammar.Consistent.run_closedColumns {grammar : Grammar} {limits : Limits}
    (consistent : grammar.Consistent) (unlimited : limits.maxItems = 0) (tokens : List Token) :
    Engine.ClosedColumns grammar limits tokens (grammar.run limits tokens).chart := by
  rcases Grammar.run_cases_of_ends (Engine.ends_parseAll_closed consistent unlimited) with
    ⟨_, _, columns⟩ | ⟨_, _, columns⟩
  · exact columns
  · exact columns

namespace Declaration

variable {declaration : Declaration} {grammar : Grammar} {limits : Limits}

/-- Closing a column comes to the end of the column, whatever the rules are. The columns of a chart
are those that have been closed in this way, and their items are limited in number by the rules and
by the tokens before them. -/
theorem run_exhausts_columns (built : declaration.build = .ok grammar)
    (unlimited : limits.maxItems = 0) (tokens : List Token) :
    (∀ {column state}, Engine.Entered grammar limits tokens column state →
        ∃ closed, Engine.closeColumn grammar limits column state = .ok () closed ∧
          Engine.Exhausts grammar limits column 0 state closed) ∧
      (∀ column < (grammar.run limits tokens).chart.size, ∃ state closed,
        Engine.Entered grammar limits tokens column state ∧
          Engine.Exhausts grammar limits column 0 state closed ∧
          ∀ index, (grammar.run limits tokens).chart.item? ⟨column, index⟩ =
            closed.chart.item? ⟨column, index⟩) ∧
      ∀ column, (grammar.run limits tokens).chart.width column ≤ (column + 1) *
        (grammar.productions.toList.map fun production => production.rhs.length + 1).sum := by
  obtain ⟨start, numbers⟩ := numbers_of_build built
  have consistent := numbers.consistent
  have exhausts {column : Nat} {state : ParseState}
      (entered : Engine.Entered grammar limits tokens column state) :
      ∃ closed, Engine.closeColumn grammar limits column state = .ok () closed ∧
        Engine.Exhausts grammar limits column 0 state closed := by
    have ends : Engine.Ends (Engine.closeColumn grammar limits column) state _ _ :=
      Engine.ends_closeColumn_exhausts consistent unlimited
        (entered.ready consistent unlimited).1
    unfold Engine.Ends at ends
    split at ends
    next closed closes => exact ⟨closed, closes, ends⟩
    next => exact ends.elim
  refine ⟨exhausts, ?_, ?_⟩
  · intro column inside
    obtain ⟨state, closed, entered, closes, same⟩ :=
      consistent.run_closedColumns unlimited tokens column inside
    obtain ⟨other, otherCloses, exhausted⟩ := exhausts entered
    obtain ⟨_, rfl⟩ := EStateM.Result.ok.inj (closes.symm.trans otherCloses)
    exact ⟨state, closed, entered, exhausted, same⟩
  · intro column
    rw [← Engine.dotCount_eq_sum]
    exact Engine.width_le_itemBudget consistent (consistent.run_coherent limits tokens) column

/-- Rules that lead back to themselves: by a unit, by an empty part and from the left. -/
def cycles : Declaration where
  terminals := ["mark"]
  rules := [⟨"outer", ["inner"], none⟩, ⟨"inner", ["outer"], none⟩,
    ⟨"inner", ["inner", "outer"], none⟩, ⟨"inner", ["mark"], none⟩, ⟨"inner", [], none⟩]

theorem cycles_exhausts_columns :
    (∃ closed, Engine.closeColumn (cycles.grammar "outer") {} 0
        ⟨Chart.seeded (cycles.grammar "outer").seed, 0⟩ = .ok () closed ∧
      Engine.Exhausts (cycles.grammar "outer") {} 0 0
        ⟨Chart.seeded (cycles.grammar "outer").seed, 0⟩ closed) ∧
      ((cycles.grammar "outer").run {} [⟨"mark", "x", 1, 1, 0⟩]).chart.width 1 ≤ 2 * 10 := by
  have built : cycles.build = .ok (cycles.grammar "outer") := rfl
  have exhausted := run_exhausts_columns built (show Limits.maxItems {} = 0 from rfl)
    [⟨"mark", "x", 1, 1, 0⟩]
  exact ⟨exhausted.1 .first, exhausted.2.2 1⟩

end Declaration

end EarleyChart
