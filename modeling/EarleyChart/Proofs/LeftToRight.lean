import EarleyChart.Proofs.Correctness
import EarleyChart.Proofs.Extension

/-!
Contract: a parse goes from left to right, and the limit on tokens cuts it.

What a parse does with some tokens it does before it looks at the next one. `begin_append` splits a
parse after a part of its tokens, and `precedes_consumeAll` says that what comes later keeps the columns
that are there. The limit on tokens is looked at between two tokens only, so that a parse up to the
limit is the one without it (`begin_of_maxTokens`).
-/

namespace EarleyChart

/-- A state whose columns another one begins with, keys, values and tokens included. -/
structure ParseState.Precedes (before after : ParseState) : Prop where
  columns : before.chart.columns.toList <+: after.chart.columns.toList
  ambiguities : before.ambiguities ≤ after.ambiguities

theorem ParseState.Precedes.refl (state : ParseState) : state.Precedes state :=
  ⟨List.prefix_refl _, Nat.le_refl _⟩

theorem ParseState.Precedes.trans {first second third : ParseState}
    (former : first.Precedes second) (latter : second.Precedes third) : first.Precedes third :=
  ⟨former.columns.trans latter.columns, Nat.le_trans former.ambiguities latter.ambiguities⟩

/-- What only adds to columns past the last one keeps those that are there. -/
theorem ParseState.Extends.precedes {column : Nat} {before after : ParseState}
    (grown : before.Extends column after) (past : before.chart.size ≤ column) :
    before.Precedes after where
  columns := by
    rw [List.prefix_iff_getElem?]
    intro index inside
    have below : index < before.chart.size := by simpa [Chart.size] using inside
    have kept := grown.elsewhere (show index ≠ column by omega)
    rw [Array.getElem?_toList, Array.getElem_toList]
    exact kept.trans (Array.getElem?_eq_getElem below)
  ambiguities := grown.ambiguities

/-- What a parse leaves behind, from the outcome of its steps. -/
def ParseRun.ofOutcome (outcome : EStateM.Result ParseError ParseState Value) : ParseRun where
  chart := (Engine.endState outcome).chart
  result := match outcome with
    | .ok value _ => .ok value
    | .error error _ => .error error
  stats := ⟨(Engine.endState outcome).chart.size, (Engine.endState outcome).chart.itemCount,
    (Engine.endState outcome).ambiguities⟩

theorem Grammar.run_eq_ofOutcome (grammar : Grammar) (limits : Limits) (tokens : List Token) :
    grammar.run limits tokens = .ofOutcome
      (Engine.parseAll grammar limits tokens ⟨Chart.seeded grammar.seed, 0⟩) := by
  unfold Grammar.run
  dsimp only
  cases Engine.parseAll grammar limits tokens ⟨Chart.seeded grammar.seed, 0⟩ <;> rfl

variable {grammar : Grammar} {limits : Limits} {tokens : List Token}

namespace Engine

/-- A parse up to the end of its tokens. -/
def begin (grammar : Grammar) (limits : Limits) (tokens : List Token) : Engine Unit := do
  closeColumn grammar limits 0
  consumeAll grammar limits 0 tokens

theorem consumeAll_append (consumed : Nat) (first second : List Token) :
    consumeAll grammar limits consumed (first ++ second) =
      consumeAll grammar limits consumed first >>= fun _ =>
        consumeAll grammar limits (consumed + first.length) second := by
  induction first generalizing consumed with
  | nil => simp [consumeAll]
  | cons token first inductionHypothesis =>
      simp only [List.cons_append, consumeAll, inductionHypothesis, List.length_cons, bind_assoc]
      rw [Nat.add_assoc, Nat.add_comm 1]

theorem parseAll_eq :
    parseAll grammar limits tokens =
      begin grammar limits tokens >>= fun _ => finish grammar limits := by
  simp [parseAll, begin]

theorem begin_append (first second : List Token) :
    begin grammar limits (first ++ second) =
      begin grammar limits first >>= fun _ => consumeAll grammar limits first.length second := by
  simp [begin, consumeAll_append]

/-- Later tokens keep the columns that are there. -/
theorem precedes_consumeAll (consumed : Nat) (rest : List Token) {state : ParseState}
    (started : 0 < state.chart.size) :
    state.Precedes (endState (consumeAll grammar limits consumed rest state)) := by
  induction rest generalizing consumed state with
  | nil => exact .refl state
  | cons token rest inductionHypothesis =>
      have grown : state.Extends _ (endState (consume grammar limits consumed token state)) :=
        extends_consume consumed token state
      have first := grown.precedes (by omega)
      simp only [consumeAll, Bind.bind, EStateM.bind]
      cases outcome : consume grammar limits consumed token state with
      | error error next =>
          rw [outcome] at first
          exact first
      | ok value next =>
          rw [outcome] at first grown
          have startedNext : 0 < next.chart.size := Nat.lt_of_lt_of_le started grown.size_le
          exact first.trans (inductionHypothesis (consumed + 1) startedNext)

section Limits

variable {other : Limits}

theorem insert_congr (same : limits.maxItems = other.maxItems) :
    insert limits = insert other := by
  funext column item token
  simp only [insert, same]

theorem advance_congr (same : limits.maxItems = other.maxItems) :
    advance grammar limits = advance grammar other := by
  funext column source value provenance token
  simp only [advance, insert_congr same]

theorem process_congr (same : limits.maxItems = other.maxItems) :
    process grammar limits = process grammar other := by
  have predicting : predictProduction grammar limits = predictProduction grammar other := by
    funext predictor id
    simp only [predictProduction, insert_congr same]
  funext place item
  simp only [process, predict, complete, predicting, advance_congr same]

theorem closeColumn_congr (same : limits.maxItems = other.maxItems) :
    closeColumn grammar limits = closeColumn grammar other := by
  have closing (column bound next : Nat) :
      closeFrom grammar limits column bound next = closeFrom grammar other column bound next := by
    induction bound generalizing next with
    | zero => rfl
    | succ bound inductionHypothesis =>
        simp only [closeFrom, process_congr same, inductionHypothesis]
  funext column
  exact closing column _ _

/-- What consumption of a token reads of the limits. -/
theorem consumeFrom_congr (sameItems : limits.maxItems = other.maxItems)
    (sameTraces : limits.maxTraces = other.maxTraces) :
    consumeFrom grammar limits = consumeFrom grammar other := by
  funext column token
  simp only [consumeFrom, scan, diagnose, advance_congr sameItems, closeColumn_congr sameItems,
    sameTraces]

end Limits

/-- A limit on tokens is not looked at before it is reached. -/
theorem consumeAll_of_maxTokens (unlimited : limits.maxTokens = 0) {most consumed : Nat}
    {rest : List Token} (within : consumed + rest.length ≤ most) :
    consumeAll grammar { limits with maxTokens := most } consumed rest =
      consumeAll grammar limits consumed rest := by
  have sameFrom : consumeFrom grammar { limits with maxTokens := most } =
      consumeFrom grammar limits :=
    consumeFrom_congr rfl rfl
  induction rest generalizing consumed with
  | nil => rfl
  | cons token rest inductionHypothesis =>
      rw [List.length_cons] at within
      have sameStep : consume grammar { limits with maxTokens := most } consumed token =
          consume grammar limits consumed token := by
        funext state
        rw [consume_eq, consume_eq, if_neg (by simp only; omega), if_neg (by omega),
          sameFrom]
      unfold consumeAll
      rw [sameStep, inductionHypothesis (by omega)]

theorem begin_of_maxTokens (unlimited : limits.maxTokens = 0) :
    begin grammar { limits with maxTokens := tokens.length } tokens =
      begin grammar limits tokens := by
  have sameClosing : closeColumn grammar { limits with maxTokens := tokens.length } =
      closeColumn grammar limits :=
    closeColumn_congr rfl
  unfold begin
  rw [consumeAll_of_maxTokens unlimited (by omega), sameClosing]

section Outcomes

variable {state : ParseState}

/-- Without limits a token is consumed or refused. -/
theorem ends_consumeFrom_refusal {consumed : Nat} {token : Token}
    (consistent : grammar.Consistent) (unlimited : limits.maxItems = 0)
    (ready : Ready grammar tokens state.chart consumed) (read : tokens[consumed]? = some token) :
    Ends (consumeFrom grammar limits consumed token) state (fun _ _ => True)
      (fun error _ => ∃ diagnosis, error = .unexpectedToken diagnosis) := by
  unfold consumeFrom
  rw [ends_bind]
  refine (ends_scan consistent ready.coherent ready.size read).mono ?_
    (fun _ _ overflow => absurd unlimited overflow.limited)
  intro moved scannedState scanning
  obtain ⟨progress, outcome⟩ := scanning
  rw [ends_ite]
  cases moved with
  | true =>
      exact (ends_closeColumn consistent progress.coherent).mono (fun _ _ _ => trivial)
        (fun _ _ overflow => absurd unlimited overflow.limited)
  | false =>
      rw [if_neg Bool.false_ne_true, ends_bind]
      have readyStill := ready_of_refused consistent ready progress outcome.1
      exact (ends_diagnose consistent readyStill token).mono (fun diagnosis _ _ => ⟨diagnosis, rfl⟩)
        (fun _ _ refusal => refusal)

theorem ends_consume_refusal {consumed : Nat} {token : Token} (consistent : grammar.Consistent)
    (unlimited : limits.maxItems = 0) (unbounded : limits.maxTokens = 0)
    (ready : Ready grammar tokens state.chart consumed) (read : tokens[consumed]? = some token) :
    Ends (consume grammar limits consumed token) state
      (fun _ next => Ready grammar tokens next.chart (consumed + 1))
      (fun error _ => ∃ diagnosis, error = .unexpectedToken diagnosis) := by
  have refuses : Ends (consume grammar limits consumed token) state (fun _ _ => True)
      (fun error _ => ∃ diagnosis, error = .unexpectedToken diagnosis) := by
    unfold Ends
    rw [consume_eq, if_neg (by simp [unbounded]), ready.size_sub_one]
    exact ends_consumeFrom_refusal consistent unlimited ready read
  exact ((ends_consume consistent ready read).and refuses).mono (fun _ _ reached => reached.1)
    (fun _ _ stops => stops.2)

theorem ends_consumeAll_refusal {consumed : Nat} (consistent : grammar.Consistent)
    (unlimited : limits.maxItems = 0) (unbounded : limits.maxTokens = 0)
    (ready : Ready grammar tokens state.chart consumed) {rest : List Token}
    (remaining : tokens.drop consumed = rest) :
    Ends (consumeAll grammar limits consumed rest) state (fun _ _ => True)
      (fun error _ => ∃ diagnosis, error = .unexpectedToken diagnosis) := by
  refine (ends_consumeAll_of_step (fun consumed next => Ready grammar tokens next.chart consumed)
    ?_ ready remaining).mono (fun _ _ _ => trivial) (fun _ _ stops => stops)
  intro consumed token state read readyHere
  exact ends_consume_refusal consistent unlimited unbounded readyHere read

/-- Without limits a parse gets to the end of its tokens, or a token is refused. -/
theorem ends_begin (consistent : grammar.Consistent) (unlimited : limits.maxItems = 0)
    (unbounded : limits.maxTokens = 0) {ambiguities : Nat} :
    Ends (begin grammar limits tokens) ⟨Chart.seeded grammar.seed, ambiguities⟩
      (fun _ next => Ready grammar tokens next.chart tokens.length)
      (fun error _ => ∃ diagnosis, error = .unexpectedToken diagnosis) := by
  unfold begin
  rw [ends_bind]
  refine (ends_closeColumn consistent (coherent_seeded grammar tokens)).mono ?_
    (fun _ _ overflow => absurd unlimited overflow.limited)
  intro _ closed closing
  have ready := ready_of_seeded closing.1 closing.2
  have reaches : Ends (consumeAll grammar limits 0 tokens) closed
      (fun _ next => Ready grammar tokens next.chart tokens.length) _ :=
    ends_consumeAll consistent ready rfl
  exact (reaches.and (ends_consumeAll_refusal consistent unlimited unbounded ready rfl)).mono
    (fun _ _ reached => reached.1) (fun _ _ stops => stops.2)

/-- After the last token no token is refused. -/
theorem finish_ne_refusal {next : ParseState} {diagnosis : Diagnosis} :
    finish grammar limits state ≠ .error (.unexpectedToken diagnosis) next := by
  have other : Ends (finish grammar limits) state (fun _ _ => True)
      (fun error _ => error ≠ .unexpectedToken diagnosis) := by
    unfold finish
    rw [ends_bind, ends_getChart]
    cases accepted? grammar state.chart with
    | some value => trivial
    | none =>
        dsimp only
        rw [ends_bind]
        unfold diagnose
        rw [ends_bind, ends_getChart]
        cases Diagnosis.build grammar state.chart (state.chart.size - 1) _ limits.maxTraces with
        | ok made => exact fun same => nomatch same
        | error fault => exact fun same => nomatch same
  intro same
  unfold Ends at other
  rw [same] at other
  exact other rfl

end Outcomes

end Engine

section Runs

open Engine

variable {first second : List Token} {state : ParseState}

/-- A parse that stops within some tokens is not changed by further ones. -/
theorem run_append_of_error {error : ParseError}
    (stopped : begin grammar limits first ⟨Chart.seeded grammar.seed, 0⟩ = .error error state)
    (second : List Token) :
    grammar.run limits (first ++ second) = .ofOutcome (.error error state) := by
  rw [Grammar.run_eq_ofOutcome, parseAll_eq, begin_append]
  simp only [Bind.bind, EStateM.bind, stopped]

/-- A parse that gets to the end of some tokens goes on from there. -/
theorem run_append_of_ok
    (reached : begin grammar limits first ⟨Chart.seeded grammar.seed, 0⟩ = .ok () state)
    (second : List Token) :
    grammar.run limits (first ++ second) = .ofOutcome
      ((consumeAll grammar limits first.length second >>= fun _ => finish grammar limits)
        state) := by
  rw [Grammar.run_eq_ofOutcome, parseAll_eq, begin_append, bind_assoc]
  simp only [Bind.bind, EStateM.bind, reached]

theorem run_of_error {error : ParseError}
    (stopped : begin grammar limits first ⟨Chart.seeded grammar.seed, 0⟩ = .error error state) :
    grammar.run limits first = .ofOutcome (.error error state) := by
  rw [← List.append_nil first]
  exact run_append_of_error stopped []

theorem run_of_ok
    (reached : begin grammar limits first ⟨Chart.seeded grammar.seed, 0⟩ = .ok () state) :
    grammar.run limits first = .ofOutcome (finish grammar limits state) := by
  have whole := run_append_of_ok reached []
  rw [List.append_nil] at whole
  exact whole

theorem run_leaves_of_ok
    (reached : begin grammar limits first ⟨Chart.seeded grammar.seed, 0⟩ = .ok () state) :
    (grammar.run limits first).chart = state.chart ∧
      (grammar.run limits first).stats =
        ⟨state.chart.size, state.chart.itemCount, state.ambiguities⟩ := by
  rw [run_of_ok reached]
  simp only [ParseRun.ofOutcome, endState_finish, and_self]

theorem run_unrefused_of_ok
    (reached : begin grammar limits first ⟨Chart.seeded grammar.seed, 0⟩ = .ok () state)
    (diagnosis : Diagnosis) :
    (grammar.run limits first).result ≠ .error (.unexpectedToken diagnosis) := by
  rw [run_of_ok reached]
  cases outcome : finish grammar limits state with
  | ok value next => exact fun same => nomatch same
  | error error next =>
      intro same
      obtain rfl := Except.error.inj same
      exact finish_ne_refusal outcome

/-- A parse that has come to the limit on tokens stops at the next one. -/
theorem run_append_of_limit (positive : 1 ≤ first.length) (more : second ≠ [])
    (reached : begin grammar { limits with maxTokens := first.length } first
      ⟨Chart.seeded grammar.seed, 0⟩ = .ok () state) :
    grammar.run { limits with maxTokens := first.length } (first ++ second) =
      .ofOutcome (.error (.inputTooLarge (first.length + 1) first.length) state) := by
  obtain ⟨token, rest, rfl⟩ := List.exists_cons_of_ne_nil more
  have full : first.length ≠ 0 ∧ first.length ≤ first.length :=
    ⟨Nat.ne_of_gt positive, Nat.le_refl _⟩
  rw [run_append_of_ok reached]
  simp only [consumeAll, Bind.bind, EStateM.bind, consume_eq, if_pos full]

/-- The state that a parse goes on from is kept by what follows. -/
theorem precedes_goOn (started : 0 < state.chart.size) (consumed : Nat) :
    state.Precedes (endState
      ((consumeAll grammar limits consumed second >>= fun _ => finish grammar limits) state)) := by
  have kept : state.Precedes (endState (consumeAll grammar limits consumed second state)) :=
    precedes_consumeAll consumed second started
  simp only [Bind.bind, EStateM.bind]
  cases outcome : consumeAll grammar limits consumed second state with
  | error error next =>
      rw [outcome] at kept
      exact kept
  | ok value next =>
      rw [outcome] at kept
      dsimp only
      rw [endState_finish]
      exact kept

end Runs

namespace Declaration

variable {declaration : Declaration}

/-- A parse goes from left to right: a refused token is the end of it whatever follows, and otherwise
further tokens keep its columns and do not lower its count. A limit on tokens cuts a parse where the
limit is reached. -/
theorem run_goes_left_to_right (built : declaration.build = .ok grammar)
    (unlimited : limits.maxItems = 0) (unbounded : limits.maxTokens = 0)
    (first second : List Token) :
    ((∃ diagnosis, (grammar.run limits first).result = .error (.unexpectedToken diagnosis)) →
        grammar.run limits (first ++ second) = grammar.run limits first) ∧
      ((∀ diagnosis, (grammar.run limits first).result ≠ .error (.unexpectedToken diagnosis)) →
        (grammar.run limits first).chart.columns.toList =
            (grammar.run limits (first ++ second)).chart.columns.toList.take (first.length + 1) ∧
          (grammar.run limits first).stats.ambiguities ≤
            (grammar.run limits (first ++ second)).stats.ambiguities) ∧
      (1 ≤ first.length → second ≠ [] →
        (grammar.run { limits with maxTokens := first.length } (first ++ second)).chart =
            (grammar.run limits first).chart ∧
          (grammar.run { limits with maxTokens := first.length } (first ++ second)).stats =
            (grammar.run limits first).stats ∧
          (∀ diagnosis, (grammar.run limits first).result = .error (.unexpectedToken diagnosis) →
            (grammar.run { limits with maxTokens := first.length } (first ++ second)).result =
              .error (.unexpectedToken diagnosis)) ∧
          ((∀ diagnosis, (grammar.run limits first).result ≠
              .error (.unexpectedToken diagnosis)) →
            (grammar.run { limits with maxTokens := first.length } (first ++ second)).result =
              .error (.inputTooLarge (first.length + 1) first.length))) := by
  obtain ⟨start, numbers⟩ := numbers_of_build built
  have ends : Engine.Ends (Engine.begin grammar limits first) ⟨Chart.seeded grammar.seed, 0⟩ _ _ :=
    Engine.ends_begin numbers.consistent unlimited unbounded
  unfold Engine.Ends at ends
  split at ends
  next next reached =>
    have cut : Engine.begin grammar { limits with maxTokens := first.length } first
        ⟨Chart.seeded grammar.seed, 0⟩ = .ok () next := by
      rw [Engine.begin_of_maxTokens unbounded, reached]
    have unrefused := run_unrefused_of_ok reached
    obtain ⟨sameChart, sameStats⟩ := run_leaves_of_ok reached
    refine ⟨?_, ?_, ?_⟩
    · intro refused
      obtain ⟨diagnosis, failed⟩ := refused
      exact absurd failed (unrefused diagnosis)
    · intro _
      have started : 0 < next.chart.size := by rw [ends.size]; exact Nat.succ_pos _
      have kept : next.Precedes (Engine.endState ((Engine.consumeAll grammar limits first.length
          second >>= fun _ => Engine.finish grammar limits) next)) :=
        precedes_goOn started first.length
      have counted : first.length + 1 = next.chart.columns.toList.length := by
        rw [← ends.size]
        rfl
      rw [run_append_of_ok reached, sameChart, sameStats, counted]
      exact ⟨List.prefix_iff_eq_take.mp kept.columns, kept.ambiguities⟩
    · intro positive more
      rw [run_append_of_limit positive more cut, sameChart, sameStats]
      exact ⟨rfl, rfl, fun diagnosis failed => absurd failed (unrefused diagnosis), fun _ => rfl⟩
  next error next stopped =>
    have cut : Engine.begin grammar { limits with maxTokens := first.length } first
        ⟨Chart.seeded grammar.seed, 0⟩ = .error error next := by
      rw [Engine.begin_of_maxTokens unbounded, stopped]
    obtain ⟨diagnosis, rfl⟩ := ends
    rw [run_append_of_error stopped, run_append_of_error cut, run_of_error stopped]
    refine ⟨fun _ => rfl, ?_, ?_⟩
    · intro unrefused
      exact absurd rfl (unrefused diagnosis)
    · intro _ _
      refine ⟨rfl, rfl, fun _ same => same, ?_⟩
      intro unrefused
      exact absurd rfl (unrefused diagnosis)

theorem openSum_precedes_brokenSum :
    ((sums.grammar "sum").run { maxTokens := 0 } openSum).chart.columns.toList =
        ((sums.grammar "sum").run { maxTokens := 0 } brokenSum).chart.columns.toList.take 3 ∧
      ((sums.grammar "sum").run { maxTokens := 2 } brokenSum).result =
        .error (.inputTooLarge 3 2) := by
  have accepted : ((sums.grammar "sum").run { maxTokens := 0 } openSum).result.toBool = true := by
    decide +kernel
  have unrefused (diagnosis : Diagnosis) :
      ((sums.grammar "sum").run { maxTokens := 0 } openSum).result ≠
        .error (.unexpectedToken diagnosis) := by
    intro failed
    rw [failed] at accepted
    contradiction
  have ordered := run_goes_left_to_right build_sums
    (show Limits.maxItems { maxTokens := 0 } = 0 from rfl) rfl openSum (brokenSum.drop 2)
  have parts : openSum ++ brokenSum.drop 2 = brokenSum := rfl
  have counted : openSum.length = 2 := rfl
  rw [parts, counted] at ordered
  exact ⟨(ordered.2.1 unrefused).1, (ordered.2.2 (by decide) (by decide)).2.2.2 unrefused⟩

end Declaration

end EarleyChart
