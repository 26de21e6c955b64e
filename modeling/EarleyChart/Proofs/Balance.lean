import EarleyChart.Proofs.Tally

/-!
Contract: what a parse has tried when it ends.

Closing a column takes the front past its items, and scanning takes it into the next column. Between
two tokens everything in the chart has been tried: `Engine.Balanced` is kept by `ends_consume_balanced`
for one token and by `ends_consumeAll_balanced` for all of them. Without a limit on the items of a
column this holds wherever the parse ends, since a step within a column does not stop.
-/

namespace EarleyChart

namespace Engine

variable {grammar : Grammar} {tokens : List Token} {limits : Limits} {column : Nat}
  {state : ParseState}

section Columns

variable {chart : Chart} {move : Provenance}

/-- A front past the last item of a column is as good as the one right after it. -/
theorem tried_of_width_le {index : Nat} (all : chart.width column ≤ index) :
    Tried grammar tokens chart ⟨column, chart.width column⟩ move ↔
      Tried grammar tokens chart ⟨column, index⟩ move := by
  have same {place : ItemRef} {item : Item} (present : chart.item? place = some item) :
      place.Before ⟨column, chart.width column⟩ ↔ place.Before ⟨column, index⟩ := by
    have below := Chart.index_lt_width_iff.mpr ⟨item, present⟩
    unfold ItemRef.Before
    by_cases inColumn : place.column = column
    · rw [inColumn] at below
      simp only
      omega
    · simp only
      omega
  cases move with
  | seed => exact Iff.rfl
  | predicted => exact Iff.rfl
  | scanned => exact Iff.rfl
  | completed parent child =>
      apply and_congr_right
      intro joins
      obtain ⟨_, _, _, _, parentPresent, childPresent, _⟩ := joins
      rw [same parentPresent, same childPresent]

theorem ends_closeFrom_tally (consistent : grammar.Consistent) (unlimited : limits.maxItems = 0)
    (bound next : Nat) (coherent : Coherent grammar tokens state.chart)
    (tally : Tally (Tried grammar tokens state.chart ⟨column, next⟩) state)
    (enough : itemBudget grammar column < next + bound) :
    Ends (closeFrom grammar limits column bound next) state
      (fun _ closed => Tally
        (Tried grammar tokens closed.chart ⟨column, closed.chart.width column⟩) closed) Never := by
  induction bound generalizing next state with
  | zero =>
      -- The front has gone as far as a column can reach.
      have fits := width_le_itemBudget consistent coherent column
      exact tally.congr fun move => tried_of_width_le (by omega)
  | succ bound inductionHypothesis =>
      unfold closeFrom
      rw [ends_bind, ends_getChart]
      cases present : state.chart.item? ⟨column, next⟩ with
      | none =>
          refine tally.congr fun move => tried_of_width_le ?_
          by_contra more
          obtain ⟨item, found⟩ := Chart.exists_item_of_lt_width (Nat.lt_of_not_le more)
          rw [present] at found
          contradiction
      | some item =>
          dsimp only
          rw [ends_bind]
          have processed := (ends_process consistent coherent present).and
            (ends_process_tally consistent coherent unlimited present tally not_tried_of_arises)
          refine processed.mono ?_ (fun _ _ stops => stops.2)
          intro _ middle reached
          obtain ⟨⟨progress, _⟩, tallied⟩ := reached
          have passed := tallied.passes consistent coherent present
          exact inductionHypothesis (next + 1) progress.coherent passed (by omega)

theorem ends_closeColumn_tally (consistent : grammar.Consistent) (unlimited : limits.maxItems = 0)
    (coherent : Coherent grammar tokens state.chart)
    (tally : Tally (Tried grammar tokens state.chart ⟨column, 0⟩) state) :
    Ends (closeColumn grammar limits column) state
      (fun _ closed => Tally
        (Tried grammar tokens closed.chart ⟨column, closed.chart.width column⟩) closed) Never :=
  ends_closeFrom_tally consistent unlimited _ 0 coherent tally (by omega)

/-- Passing on to the next column adds the moves over the token that leads there. -/
theorem tried_next_column (last : chart.size = column + 1) :
    Tried grammar tokens chart ⟨column + 1, 0⟩ move ↔
      Tried grammar tokens chart ⟨column, chart.width column⟩ move ∨
        ∃ source, move = .scanned source ∧ source.column = column ∧
          chart.Expects grammar tokens source := by
  cases move with
  | seed => simp [Tried]
  | predicted => simp [Tried]
  | scanned source =>
      simp only [Tried, Provenance.scanned.injEq, Nat.lt_succ_iff_lt_or_eq, exists_eq_left']
      tauto
  | completed parent child =>
      have passed {place : ItemRef} {item : Item} (present : chart.item? place = some item) :
          place.Before ⟨column, chart.width column⟩ ∧ place.Before ⟨column + 1, 0⟩ := by
        have inside := Chart.column_lt_size present
        exact ⟨before_width present (by omega), .inl (by simp only; omega)⟩
      simp only [Tried, reduceCtorEq, false_and, exists_false, or_false]
      apply and_congr_right
      intro joins
      obtain ⟨_, _, _, _, parentPresent, childPresent, _⟩ := joins
      simp only [passed parentPresent, passed childPresent]

theorem nodup_scanSources {chart : Chart} {symbol : SymbolId} :
    ((match chart.column? column with
      | none => []
      | some reached =>
          (reached.indices fun item => item.next? grammar == some symbol).map
            (ItemRef.mk column)).map Provenance.scanned).Nodup := by
  split
  next => exact List.nodup_nil
  next =>
    rw [List.map_map]
    refine List.Nodup.map ?_ (nodup_indicesBelow _ _ _)
    intro first second same
    simp only [Function.comp_apply, Provenance.scanned.injEq, ItemRef.mk.injEq] at same
    exact same.2

theorem ends_scan_tally {token : Token} (consistent : grammar.Consistent)
    (unlimited : limits.maxItems = 0) (coherent : Coherent grammar tokens state.chart)
    (last : state.chart.size = column + 1) (read : tokens[column]? = some token)
    (tally : Tally (Tried grammar tokens state.chart ⟨column, state.chart.width column⟩) state) :
    Ends (scan grammar limits column token) state
      (fun _ next => Tally (Tried grammar tokens next.chart ⟨column + 1, 0⟩) next) Never := by
  unfold scan
  cases spelled : grammar.terminal? token.name with
  | none =>
      -- A token that the grammar does not know is expected by no item.
      apply tally.congr
      intro move
      rw [tried_next_column last]
      apply or_iff_left
      intro scanned
      obtain ⟨source, rfl, rfl, _, same, _, _, sameRead, sameSpelled, _⟩ := scanned
      obtain rfl := Option.some.inj (read.symm.trans sameRead)
      rw [spelled] at sameSpelled
      contradiction
  | some symbol =>
      dsimp only
      rw [ends_bind, ends_getChart, ends_bind]
      refine (ends_moves (column + 1) ?_ nodup_scanSources ?_ tally).mono ?_
        (fun _ _ stops => stops)
      · intro source member later laterTried grows laterTally laterUntried
        obtain ⟨inColumn, item, present, awaited⟩ := mem_scanSources.mp member
        obtain ⟨production, found, _⟩ := next?_eq_some_iff.mp awaited
        have origin := coherent.origin_le consistent present
        have sizes := grows.size_le
        exact ends_advance_tally unlimited (grows.items present) found (by omega) (by omega)
          laterTally trivial laterUntried
      · intro source member tried
        obtain ⟨inColumn, _⟩ := mem_scanSources.mp member
        exact absurd tried.2 (by simp only; omega)
      · intro _ next moved
        rw [ends_bind, ends_getChart, ends_pure]
        apply moved.tally.congr
        intro move
        rw [tried_grows moved.grows (Nat.zero_le _), tried_next_column last]
        apply or_congr_right
        constructor
        · intro scanned
          obtain ⟨source, rfl, inColumn, item, other, _, present, otherRead, otherSpelled,
            awaited⟩ := scanned
          rw [inColumn, read] at otherRead
          obtain rfl := Option.some.inj otherRead
          obtain rfl := Option.some.inj (spelled.symm.trans otherSpelled)
          exact ⟨source, mem_scanSources.mpr ⟨inColumn, item, present, awaited⟩, rfl⟩
        · intro listed
          obtain ⟨source, member, rfl⟩ := listed
          obtain ⟨inColumn, item, present, awaited⟩ := mem_scanSources.mp member
          exact ⟨source, rfl, inColumn, item, token, symbol, present, inColumn ▸ read, spelled,
            awaited⟩

end Columns

/-- Everything in the chart has been tried, up to the token after its last column. -/
def Balanced (grammar : Grammar) (tokens : List Token) (state : ParseState) : Prop :=
  Tally (Tried grammar tokens state.chart
    ⟨state.chart.size - 1, state.chart.width (state.chart.size - 1)⟩) state

section Tokens

variable {consumed : Nat}

theorem ends_diagnose_balanced (consistent : grammar.Consistent)
    (ready : Ready grammar tokens state.chart consumed) (token : Token)
    (balanced : Balanced grammar tokens state) :
    Ends (diagnose grammar limits token) state (fun _ next => Balanced grammar tokens next)
      Never := by
  refine (ends_diagnose consistent ready token).mono ?_ (fun _ _ stops => stops)
  intro _ next diagnosed
  rw [diagnosed.1]
  exact balanced

theorem balanced_of_refuses {token : Token} (ready : Ready grammar tokens state.chart consumed)
    (read : tokens[consumed]? = some token) (refuses : Refuses grammar state.chart consumed token)
    (tally : Tally (Tried grammar tokens state.chart ⟨consumed + 1, 0⟩) state) :
    Balanced grammar tokens state := by
  unfold Balanced
  rw [ready.size_sub_one]
  apply tally.congr
  intro move
  rw [tried_next_column ready.size]
  symm
  apply or_iff_left
  intro scanned
  obtain ⟨source, rfl, inColumn, item, other, symbol, present, otherRead, spelled, awaited⟩ :=
    scanned
  rw [inColumn, read] at otherRead
  obtain rfl := Option.some.inj otherRead
  exact refuses inColumn present spelled awaited

/-- One token: everything has been tried again, whether the token is consumed or not. -/
theorem ends_consume_balanced {token : Token} (consistent : grammar.Consistent)
    (unlimited : limits.maxItems = 0) (ready : Ready grammar tokens state.chart consumed)
    (read : tokens[consumed]? = some token) (balanced : Balanced grammar tokens state) :
    Ends (consume grammar limits consumed token) state
      (fun _ next => Balanced grammar tokens next) (fun _ next => Balanced grammar tokens next) := by
  unfold consume
  by_cases full : limits.maxTokens ≠ 0 ∧ limits.maxTokens ≤ consumed
  · rw [if_pos full]
    exact balanced
  · rw [if_neg full, ends_bind, ends_getChart]
    dsimp only
    unfold Balanced at balanced
    rw [ready.size_sub_one] at balanced ⊢
    rw [ends_bind]
    have scans := (ends_scan consistent ready.coherent ready.size read).and
      (ends_scan_tally consistent unlimited ready.coherent ready.size read balanced)
    refine scans.mono ?_ (fun _ _ stops => stops.2.elim)
    intro moved scannedState scanning
    obtain ⟨⟨progress, outcome⟩, tally⟩ := scanning
    rw [ends_ite]
    cases moved with
    | true =>
        obtain ⟨size, scanned⟩ := outcome
        have closes := (ends_closeColumn consistent progress.coherent).and
          (ends_closeColumn_tally consistent unlimited progress.coherent tally)
        refine closes.mono ?_ (fun _ _ stops => stops.2.elim)
        intro _ closed closing
        obtain ⟨⟨closingProgress, settled⟩, closedTally⟩ := closing
        have readyNext := ready_of_closed consistent ready read progress size scanned
          closingProgress settled
        unfold Balanced
        rw [readyNext.size_sub_one]
        exact closedTally
    | false =>
        obtain ⟨size, refuses⟩ := outcome
        have readyStill := ready_of_refused consistent ready progress size
        rw [if_neg Bool.false_ne_true, ends_bind]
        exact (ends_diagnose_balanced consistent readyStill token
          (balanced_of_refuses readyStill read refuses tally)).mono
          (fun _ _ balancedStill => balancedStill) (fun _ _ stops => stops.elim)

theorem ends_consumeAll_balanced (consistent : grammar.Consistent)
    (unlimited : limits.maxItems = 0) (ready : Ready grammar tokens state.chart consumed)
    {rest : List Token} (remaining : tokens.drop consumed = rest)
    (balanced : Balanced grammar tokens state) :
    Ends (consumeAll grammar limits consumed rest) state
      (fun _ next => Balanced grammar tokens next) (fun _ next => Balanced grammar tokens next) := by
  refine (ends_consumeAll_of_step (fun consumed next =>
    Ready grammar tokens next.chart consumed ∧ Balanced grammar tokens next) ?_ ⟨ready, balanced⟩
      remaining).mono (fun _ _ reached => reached.2) (fun _ _ stops => stops)
  intro consumed token state read kept
  have consumes := (ends_consume consistent kept.1 read).and
    (ends_consume_balanced consistent unlimited kept.1 read kept.2)
  exact consumes.mono (fun _ _ reached => reached) (fun _ _ stops => stops.2)

theorem ends_finish_balanced (consistent : grammar.Consistent)
    (ready : Ready grammar tokens state.chart consumed) (balanced : Balanced grammar tokens state) :
    Ends (finish grammar limits) state (fun _ next => Balanced grammar tokens next)
      (fun _ next => Balanced grammar tokens next) := by
  unfold finish
  rw [ends_bind, ends_getChart]
  cases accepted? grammar state.chart with
  | some value => exact balanced
  | none =>
      dsimp only
      rw [ends_bind]
      exact (ends_diagnose_balanced consistent ready _ balanced).mono
        (fun _ _ balancedStill => balancedStill) (fun _ _ stops => stops.elim)

theorem tally_seeded (grammar : Grammar) (tokens : List Token) :
    Tally (Tried grammar tokens (Chart.seeded grammar.seed) ⟨0, 0⟩)
      ⟨Chart.seeded grammar.seed, 0⟩ := by
  have untried (move : Provenance) :
      ¬ Tried grammar tokens (Chart.seeded grammar.seed) ⟨0, 0⟩ move := by
    intro tried
    cases move with
    | seed => exact tried
    | predicted => exact tried
    | scanned => exact absurd tried.2 (Nat.not_lt_zero _)
    | completed parent child =>
        rcases tried.2.1 with earlier | ⟨_, earlier⟩
        · exact absurd earlier (Nat.not_lt_zero _)
        · exact absurd earlier (Nat.not_lt_zero _)
  have unrecorded {move : Provenance} (isMove : move.IsMove) :
      ¬ (Chart.seeded grammar.seed).Records move := by
    intro recorded
    obtain ⟨place, item, present, rfl⟩ := recorded
    obtain ⟨_, rfl⟩ := Chart.eq_of_item?_seeded present
    exact isMove.elim
  refine ⟨fun tried => absurd tried (untried _), ?_, ∅, ∅, ?_, ?_, rfl⟩
  · intro move isMove recorded
    exact absurd recorded (unrecorded isMove)
  · simp [untried]
  · intro move
    simp only [Finset.notMem_empty, false_iff, not_and]
    exact unrecorded

theorem ends_parseAll_balanced (consistent : grammar.Consistent)
    (unlimited : limits.maxItems = 0) :
    Ends (parseAll grammar limits tokens) ⟨Chart.seeded grammar.seed, 0⟩
      (fun _ next => Balanced grammar tokens next) (fun _ next => Balanced grammar tokens next) := by
  unfold parseAll
  rw [ends_bind]
  have coherent : Coherent grammar tokens (ParseState.mk (Chart.seeded grammar.seed) 0).chart :=
    coherent_seeded grammar tokens
  have closes := (ends_closeColumn consistent coherent).and
    (ends_closeColumn_tally consistent unlimited coherent (tally_seeded grammar tokens))
  refine closes.mono ?_ (fun _ _ stops => stops.2.elim)
  intro _ closed closing
  obtain ⟨⟨progress, settled⟩, tally⟩ := closing
  have ready := ready_of_seeded progress settled
  have balanced : Balanced grammar tokens closed := by
    unfold Balanced
    rw [ready.size_sub_one]
    exact tally
  rw [ends_bind]
  have consumes := (ends_consumeAll consistent ready rfl).and
    (ends_consumeAll_balanced consistent unlimited ready rfl balanced)
  refine consumes.mono ?_ (fun _ _ stops => stops.2)
  intro _ consumed reached
  exact ends_finish_balanced consistent reached.1 reached.2

end Tokens

end Engine

/-- Wherever a parse ends, everything in its chart has been tried. -/
theorem Grammar.Consistent.run_balanced {grammar : Grammar} {limits : Limits}
    (consistent : grammar.Consistent) (unlimited : limits.maxItems = 0) (tokens : List Token) :
    Engine.Balanced grammar tokens
      ⟨(grammar.run limits tokens).chart, (grammar.run limits tokens).stats.ambiguities⟩ := by
  rcases Grammar.run_cases_of_ends (Engine.ends_parseAll_balanced consistent unlimited) with
    ⟨_, _, balanced⟩ | ⟨_, _, balanced⟩
  · exact balanced
  · exact balanced

end EarleyChart
