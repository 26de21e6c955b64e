import EarleyChart.Proofs.Chains

/-!
Contract: what a parse ends in.

Between two tokens the chart is `Ready`: `ends_consume` is the step and `ends_consumeAll` the run over
the tokens. A parse either returns the value of the complete start production, after all tokens, or
it stops in one of the ways of `Stops`; contradictions in the chart are not among them. The token and
the terminals that a syntax error names are those of its diagnosis (`run_repeatsDiagnosis`).
-/

namespace EarleyChart

/-- The ways in which a parse stops, with the chart that it leaves. -/
inductive Stops (grammar : Grammar) (tokens : List Token) (limits : Limits) (chart : Chart) :
    ParseError → Prop where
  | refused {consumed : Nat} {token : Token} {diagnosis : Diagnosis}
      (ready : Ready grammar tokens chart consumed) (read : tokens[consumed]? = some token)
      (refuses : Engine.Refuses grammar chart consumed token)
      (explains : diagnosis.Explains grammar chart consumed token) :
      Stops grammar tokens limits chart (.unexpectedToken diagnosis)
  | unfinished {diagnosis : Diagnosis} (ready : Ready grammar tokens chart tokens.length)
      (unaccepted : Engine.accepted? grammar chart = none)
      (explains : diagnosis.Explains grammar chart tokens.length
        (Token.endOfInput tokens.getLast?)) :
      Stops grammar tokens limits chart (.unexpectedEnd diagnosis)
  | manyTokens {consumed : Nat} (ready : Ready grammar tokens chart consumed)
      (limited : limits.maxTokens ≠ 0) (full : limits.maxTokens ≤ consumed)
      (more : consumed < tokens.length) :
      Stops grammar tokens limits chart (.inputTooLarge (consumed + 1) limits.maxTokens)
  | manyItems {column items : Nat} (coherent : Coherent grammar tokens chart)
      (limited : limits.maxItems ≠ 0) :
      Stops grammar tokens limits chart (.columnTooLarge column items limits.maxItems)

variable {grammar : Grammar} {tokens : List Token} {limits : Limits}

namespace Engine

variable {state : ParseState} {column consumed : Nat}

theorem Overflow.stops {before after : ParseState} {error : ParseError}
    (overflow : Overflow grammar tokens limits column before error after) :
    Stops grammar tokens limits after.chart error := by
  obtain ⟨items, rfl⟩ := overflow.tooLarge
  exact .manyItems overflow.progress.coherent overflow.limited

theorem Scanned.grows {before after : Chart} {scannedColumn : Nat} {token : Token}
    (scanned : Scanned grammar before scannedColumn token) (earlier : scannedColumn < column)
    (grows : before.Grows column after) : Scanned grammar after scannedColumn token := by
  intro place item symbol inColumn present spelled awaited
  rw [grows.elsewhere (by omega)] at present
  exact (scanned inColumn present spelled awaited).grows grows

/-- What a chart is ready for, it stays ready for while later columns grow. -/
theorem settled_of_progress {after : ParseState} (consistent : grammar.Consistent)
    (ready : Ready grammar tokens state.chart consumed)
    (progress : Progress grammar tokens (consumed + 1) state after) :
    (∀ {column}, column ≤ consumed → ColumnSettled grammar after.chart column) ∧
      ∀ {column token}, column < consumed → tokens[column]? = some token →
        Scanned grammar after.chart column token := by
  constructor
  · intro column reached
    exact ColumnSettled.grows consistent ready.coherent (ready.settled reached) (by omega)
      progress.grows
  · intro column token earlier read
    exact Scanned.grows (ready.scanned earlier read) (by omega) progress.grows

theorem ready_of_refused {after : ParseState} (consistent : grammar.Consistent)
    (ready : Ready grammar tokens state.chart consumed)
    (progress : Progress grammar tokens (consumed + 1) state after)
    (size : after.chart.size = consumed + 1) : Ready grammar tokens after.chart consumed := by
  obtain ⟨settled, scanned⟩ := settled_of_progress consistent ready progress
  exact ⟨progress.coherent, size, settled, scanned⟩

theorem ready_of_closed {scannedState closed : ParseState} {token : Token}
    (consistent : grammar.Consistent) (ready : Ready grammar tokens state.chart consumed)
    (read : tokens[consumed]? = some token)
    (scanning : Progress grammar tokens (consumed + 1) state scannedState)
    (size : scannedState.chart.size = consumed + 2)
    (scanned : Scanned grammar scannedState.chart consumed token)
    (closing : Progress grammar tokens (consumed + 1) scannedState closed)
    (closedColumn : ColumnSettled grammar closed.chart (consumed + 1)) :
    Ready grammar tokens closed.chart (consumed + 1) := by
  obtain ⟨settledBefore, scannedBefore⟩ :=
    settled_of_progress consistent ready (scanning.trans closing)
  refine ⟨closing.coherent, ?_, ?_, ?_⟩
  · have grown := closing.grows.size_le
    have bounded := closing.grows.le_size
    omega
  · intro column reached
    by_cases last : column = consumed + 1
    · rw [last]
      exact closedColumn
    · exact settledBefore (by omega)
  · intro column other earlier otherRead
    by_cases last : column = consumed
    · subst last
      obtain rfl := Option.some.inj (read.symm.trans otherRead)
      exact scanned.grows (Nat.lt_succ_self _) closing.grows
    · exact scannedBefore (by omega) otherRead

theorem ready_of_seeded {ambiguities : Nat} {closed : ParseState}
    (closing : Progress grammar tokens 0 ⟨Chart.seeded grammar.seed, ambiguities⟩ closed)
    (closedColumn : ColumnSettled grammar closed.chart 0) :
    Ready grammar tokens closed.chart 0 := by
  refine ⟨closing.coherent, ?_, ?_, ?_⟩
  · have grown := closing.grows.size_le
    have bounded := closing.grows.le_size
    change 1 ≤ closed.chart.size at grown
    change closed.chart.size ≤ max 1 1 at bounded
    omega
  · intro column reached
    obtain rfl := Nat.le_zero.mp reached
    exact closedColumn
  · intro column token earlier
    omega

theorem ends_diagnose (consistent : grammar.Consistent)
    (ready : Ready grammar tokens state.chart consumed) (token : Token)
    {stopped : ParseError → ParseState → Prop} :
    Ends (diagnose grammar limits token) state
      (fun diagnosis next => next = state ∧
        diagnosis.Explains grammar state.chart consumed token) stopped := by
  have inside : consumed < state.chart.size := by
    rw [ready.size]
    exact Nat.lt_succ_self _
  obtain ⟨diagnosis, built, explains⟩ :=
    ready.coherent.exists_diagnosis consistent inside token limits.maxTraces
  unfold diagnose
  rw [ends_bind, ends_getChart, ready.size_sub_one, built]
  exact ⟨rfl, explains⟩

/-- One token: the chart is ready again, one column further, or the parse stops. -/
theorem ends_consume (consistent : grammar.Consistent)
    (ready : Ready grammar tokens state.chart consumed) {token : Token}
    (read : tokens[consumed]? = some token) :
    Ends (consume grammar limits consumed token) state
      (fun _ next => Ready grammar tokens next.chart (consumed + 1))
      (fun error next => Stops grammar tokens limits next.chart error) := by
  unfold consume
  by_cases full : limits.maxTokens ≠ 0 ∧ limits.maxTokens ≤ consumed
  · rw [if_pos full]
    exact .manyTokens ready full.1 full.2 (List.getElem?_eq_some_iff.mp read).1
  · rw [if_neg full, ends_bind, ends_getChart]
    dsimp only
    rw [ready.size_sub_one, ends_bind]
    refine (ends_scan consistent ready.coherent ready.size read).mono ?_
      (fun _ _ overflow => overflow.stops)
    intro moved scannedState scanning
    obtain ⟨progress, outcome⟩ := scanning
    rw [ends_ite]
    cases moved with
    | true =>
        obtain ⟨size, scanned⟩ := outcome
        refine (ends_closeColumn consistent progress.coherent).mono ?_
          (fun _ _ overflow => overflow.stops)
        intro _ closed closing
        exact ready_of_closed consistent ready read progress size scanned closing.1 closing.2
    | false =>
        obtain ⟨size, refuses⟩ := outcome
        have readyStill := ready_of_refused consistent ready progress size
        rw [if_neg Bool.false_ne_true, ends_bind]
        refine (ends_diagnose consistent readyStill token).mono ?_ (fun _ _ stops => stops)
        intro diagnosis next diagnosed
        obtain ⟨rfl, explains⟩ := diagnosed
        exact .refused readyStill read refuses explains

/-- What a parse keeps from one token to the next, it keeps to the end of its tokens. -/
theorem ends_consumeAll_of_step (kept : Nat → ParseState → Prop)
    {stopped : ParseError → ParseState → Prop} {rest : List Token}
    (step : ∀ {consumed token state}, tokens[consumed]? = some token → kept consumed state →
      Ends (consume grammar limits consumed token) state (fun _ next => kept (consumed + 1) next)
        stopped)
    (initially : kept consumed state) (remaining : tokens.drop consumed = rest) :
    Ends (consumeAll grammar limits consumed rest) state
      (fun _ next => kept (consumed + rest.length) next) stopped := by
  induction rest generalizing consumed state with
  | nil => exact initially
  | cons token rest inductionHypothesis =>
      have read : tokens[consumed]? = some token := by
        rw [← List.head?_drop, remaining]
        rfl
      have remainingAfter : tokens.drop (consumed + 1) = rest := by
        rw [← List.tail_drop, remaining]
        rfl
      unfold consumeAll
      rw [ends_bind]
      refine (step read initially).mono ?_ (fun _ _ stops => stops)
      intro _ next keptNext
      rw [List.length_cons, Nat.add_comm rest.length, ← Nat.add_assoc]
      exact inductionHypothesis keptNext remainingAfter

theorem ends_consumeAll (consistent : grammar.Consistent)
    (ready : Ready grammar tokens state.chart consumed) {rest : List Token}
    (remaining : tokens.drop consumed = rest) :
    Ends (consumeAll grammar limits consumed rest) state
      (fun _ next => Ready grammar tokens next.chart tokens.length)
      (fun error next => Stops grammar tokens limits next.chart error) := by
  have total : consumed + rest.length = tokens.length := by
    rw [← remaining, List.length_drop, Nat.add_sub_cancel' ready.consumed_le]
  rw [← total]
  refine ends_consumeAll_of_step (fun consumed next => Ready grammar tokens next.chart consumed) ?_
    ready remaining
  intro consumed token state read readyHere
  exact ends_consume consistent readyHere read

theorem ends_finish (consistent : grammar.Consistent)
    (ready : Ready grammar tokens state.chart tokens.length) :
    Ends (finish grammar limits) state
      (fun value next => Ready grammar tokens next.chart tokens.length ∧
        accepted? grammar next.chart = some value)
      (fun error next => Stops grammar tokens limits next.chart error) := by
  unfold finish
  rw [ends_bind, ends_getChart]
  cases accepted : accepted? grammar state.chart with
  | some value => exact ⟨ready, accepted⟩
  | none =>
      have lastToken : state.chart.token? (state.chart.size - 1) = tokens.getLast? := by
        rw [ready.size, Nat.add_sub_cancel,
          ready.coherent.recorded (by rw [ready.size]; exact Nat.lt_succ_self _),
          List.getLast?_eq_getElem?]
        cases tokens with
        | nil => rfl
        | cons token rest => rfl
      dsimp only
      rw [lastToken, ends_bind]
      refine (ends_diagnose consistent ready _).mono ?_ (fun _ _ stops => stops)
      intro diagnosis next diagnosed
      obtain ⟨rfl, explains⟩ := diagnosed
      exact .unfinished ready accepted explains

theorem ends_parseAll (consistent : grammar.Consistent) {ambiguities : Nat} :
    Ends (parseAll grammar limits tokens) ⟨Chart.seeded grammar.seed, ambiguities⟩
      (fun value next => Ready grammar tokens next.chart tokens.length ∧
        accepted? grammar next.chart = some value)
      (fun error next => Stops grammar tokens limits next.chart error) := by
  unfold parseAll
  rw [ends_bind]
  refine (ends_closeColumn consistent (coherent_seeded grammar tokens)).mono ?_
    (fun _ _ overflow => overflow.stops)
  intro _ closed closing
  rw [ends_bind]
  refine (ends_consumeAll consistent (ready_of_seeded closing.1 closing.2) rfl).mono ?_
    (fun _ _ stops => stops)
  intro _ consumed readyLast
  exact ends_finish consistent readyLast

end Engine

/-- What the steps of a parse end in, the parse leaves behind. -/
theorem Grammar.run_cases_of_ends {done : Value → ParseState → Prop}
    {stopped : ParseError → ParseState → Prop}
    (ends : Engine.Ends (Engine.parseAll grammar limits tokens) ⟨Chart.seeded grammar.seed, 0⟩ done
      stopped) :
    (∃ value, (grammar.run limits tokens).result = .ok value ∧ done value
        ⟨(grammar.run limits tokens).chart, (grammar.run limits tokens).stats.ambiguities⟩) ∨
      ∃ error, (grammar.run limits tokens).result = .error error ∧ stopped error
        ⟨(grammar.run limits tokens).chart, (grammar.run limits tokens).stats.ambiguities⟩ := by
  unfold Engine.Ends at ends
  unfold Grammar.run
  split at ends
  next value next outcome =>
    simp only [outcome]
    exact .inl ⟨value, rfl, ends⟩
  next error next outcome =>
    simp only [outcome]
    exact .inr ⟨error, rfl, ends⟩

/-- The outcome of a parse, with the chart that it leaves. -/
theorem Grammar.Consistent.run_cases (consistent : grammar.Consistent) (limits : Limits)
    (tokens : List Token) :
    (∃ value, (grammar.run limits tokens).result = .ok value ∧
        Ready grammar tokens (grammar.run limits tokens).chart tokens.length ∧
        Engine.accepted? grammar (grammar.run limits tokens).chart = some value) ∨
      ∃ error, (grammar.run limits tokens).result = .error error ∧
        Stops grammar tokens limits (grammar.run limits tokens).chart error :=
  Grammar.run_cases_of_ends (Engine.ends_parseAll consistent)

/-- A syntax error has the token and the terminals of its diagnosis. -/
def ParseError.RepeatsDiagnosis : ParseError → Prop
  | .unexpected diagnosis token expected =>
      token = diagnosis.token ∧ expected = diagnosis.expected
  | .ended diagnosis token expected =>
      token = diagnosis.token ∧ expected = diagnosis.expected
  | _ => True

/-- Whether an error tells of a limit on tokens or items. -/
def ParseError.isLimit : ParseError → Bool
  | .inputTooLarge _ _ => true
  | .columnTooLarge _ _ _ => true
  | _ => false

/-- No limit has cut the parse short that ends in the result. -/
def WithinLimits (result : Except ParseError Value) : Prop :=
  ∀ error, result = .error error → error.isLimit = false

theorem Stops.repeatsDiagnosis {chart : Chart} {error : ParseError}
    (stops : Stops grammar tokens limits chart error) : error.RepeatsDiagnosis := by
  cases stops with
  | refused _ _ _ _ => exact ⟨rfl, rfl⟩
  | unfinished _ _ _ => exact ⟨rfl, rfl⟩
  | manyTokens _ _ _ _ => trivial
  | manyItems _ _ => trivial

theorem Grammar.Consistent.run_repeatsDiagnosis (consistent : grammar.Consistent)
    {error : ParseError} (failed : (grammar.run limits tokens).result = .error error) :
    error.RepeatsDiagnosis := by
  rcases consistent.run_cases limits tokens with ⟨value, returned, _⟩ | ⟨same, stopped, stops⟩
  · rw [returned] at failed
    contradiction
  · obtain rfl := Except.error.inj (stopped.symm.trans failed)
    exact stops.repeatsDiagnosis

theorem Stops.coherent {chart : Chart} {error : ParseError}
    (stops : Stops grammar tokens limits chart error) : Coherent grammar tokens chart := by
  cases stops with
  | refused ready _ _ _ => exact ready.coherent
  | unfinished ready _ _ => exact ready.coherent
  | manyTokens ready _ _ _ => exact ready.coherent
  | manyItems coherent _ => exact coherent

/-- Whatever a parse ends in, its chart is coherent. -/
theorem Grammar.Consistent.run_coherent (consistent : grammar.Consistent) (limits : Limits)
    (tokens : List Token) : Coherent grammar tokens (grammar.run limits tokens).chart := by
  rcases consistent.run_cases limits tokens with ⟨_, _, ready, _⟩ | ⟨_, _, stops⟩
  · exact ready.coherent
  · exact stops.coherent

/-- Without a limit on the items of a column, the columns of a parse are closed wherever it ends. -/
theorem Grammar.Consistent.run_ready (consistent : grammar.Consistent)
    (unlimited : limits.maxItems = 0) (tokens : List Token) :
    ∃ consumed, Ready grammar tokens (grammar.run limits tokens).chart consumed := by
  rcases consistent.run_cases limits tokens with ⟨_, _, ready, _⟩ | ⟨_, _, stops⟩
  · exact ⟨_, ready⟩
  · cases stops with
    | refused ready _ _ _ => exact ⟨_, ready⟩
    | unfinished ready _ _ => exact ⟨_, ready⟩
    | manyTokens ready _ _ _ => exact ⟨_, ready⟩
    | manyItems _ limited => exact absurd unlimited limited

end EarleyChart
