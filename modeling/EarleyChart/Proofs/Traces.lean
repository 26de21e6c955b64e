import EarleyChart.Proofs.Correctness
import EarleyChart.Proofs.Traversals

/-!
Contract: derivation chains lead out of a parse, and traces tile its input.

`Chart.WaitsFor` is one step of a chain: the outer item waits for the left-hand side of the inner
one, in the column where the inner one began. A chain is made of such steps and ends with an item of
the start production. A trace reports the items of a chain, so that its steps, read from the
outermost one, match the consumed tokens one after the other.
-/

namespace EarleyChart

/-- `outer` waits for `inner`, in the column where `inner` began. -/
def Chart.WaitsFor (grammar : Grammar) (chart : Chart) (inner outer : ItemRef) : Prop :=
  ∃ item waiting production, chart.item? inner = some item ∧ chart.item? outer = some waiting ∧
    grammar.production? item.production = some production ∧
    waiting.next? grammar = some production.lhs ∧ item.origin = outer.column

/-- A place holds an item of the start production that began in the first column. -/
def Chart.Outermost (grammar : Grammar) (chart : Chart) (place : ItemRef) : Prop :=
  ∃ item, chart.item? place = some item ∧ item.production = grammar.startProduction ∧
    item.origin = 0

/-- Places from a first one out to the start production, each of which waits for the one before
it. -/
structure Chart.LeadsOut (grammar : Grammar) (chart : Chart) (place : ItemRef)
    (chain : List ItemRef) : Prop where
  first : chain.head? = some place
  linked : chain.IsChain (chart.WaitsFor grammar)
  last : ∃ outermost, chain.getLast? = some outermost ∧ chart.Outermost grammar outermost

/-- A step of a trace tells of the item at a place, and its text is that of the tokens between the
item's origin and its column. -/
structure TraceStep.Reports (grammar : Grammar) (tokens : List Token) (chart : Chart)
    (place : ItemRef) (step : TraceStep) : Prop where
  item : ∃ item, chart.item? place = some item ∧ item.origin = step.origin ∧
    step.rule = grammar.dotted item.production item.dot
  column : step.column = place.column
  ordered : step.origin ≤ step.column
  matched : step.matched =
    String.intercalate " " ((between tokens step.origin step.column).map Token.text)

/-- The steps of a trace, given innermost first, cover the columns up to `column` without gap or
overlap, and together match the tokens up to there. -/
structure Trace.Tiles (tokens : List Token) (column : Nat) (steps : List TraceStep) : Prop where
  innermost : steps.head?.map TraceStep.column = some column
  outermost : steps.getLast?.map TraceStep.origin = some 0
  adjacent : steps.IsChain fun inner outer => outer.column = inner.origin
  covered : (steps.reverse.flatMap fun step => between tokens step.origin step.column) =
    tokens.take column

/-- A trace explains one expectation of a column: it reports the chain of an item that expects the
terminal, and its steps tile the columns up to there. -/
structure Trace.Genuine (grammar : Grammar) (tokens : List Token) (chart : Chart) (column : Nat)
    (trace : Trace) : Prop where
  reported : ∃ place item chain, place.column = column ∧ chart.item? place = some item ∧
    Diagnosis.expectation? grammar item = some trace.expected ∧
    chart.derivationChain place = .ok chain ∧ chart.LeadsOut grammar place chain ∧
    List.Forall₂ (TraceStep.Reports grammar tokens chart) chain trace.steps
  tiles : Trace.Tiles tokens column trace.steps

variable {grammar : Grammar} {tokens : List Token} {chart : Chart}

section Chains

variable {place start : ItemRef} {item : Item}

/-- The form with the dot at the start has the production and the origin of the item that goes back
to it. -/
theorem Coherent.startForm_shares (coherent : Coherent grammar tokens chart) {steps : Nat}
    (walked : chart.startFormWithin steps place = some start)
    (present : chart.item? place = some item) :
    ∃ first, chart.item? start = some first ∧ first.production = item.production ∧
      first.origin = item.origin ∧
      (first.provenance = .seed ∨ ∃ predictor, first.provenance = .predicted predictor) := by
  induction steps generalizing place item with
  | zero => cases walked
  | succ steps inductionHypothesis =>
      unfold Chart.startFormWithin at walked
      rw [present] at walked
      cases coherent.founded present with
      | seed _ =>
          obtain rfl := Option.some.inj walked
          exact ⟨_, present, rfl, rfl, .inl rfl⟩
      | predicted _ _ _ _ _ =>
          obtain rfl := Option.some.inj walked
          exact ⟨_, present, rfl, rfl, .inr ⟨_, rfl⟩⟩
      | scanned earlier _ _ _ _ _ =>
          have shared := inductionHypothesis walked earlier
          exact shared
      | completed earlier _ _ _ _ _ _ _ _ _ =>
          have shared := inductionHypothesis walked earlier
          exact shared

theorem Coherent.outermost_of_seed (coherent : Coherent grammar tokens chart) {first : Item}
    (startPresent : chart.item? start = some first) (seeded : first.provenance = .seed)
    (present : chart.item? place = some item) (sameProduction : first.production = item.production)
    (sameOrigin : first.origin = item.origin) : chart.Outermost grammar place := by
  cases coherent.founded startPresent with
  | seed _ => exact ⟨item, present, sameProduction.symm, sameOrigin.symm⟩
  | predicted _ _ _ _ _ => cases seeded
  | scanned _ _ _ _ _ _ => cases seeded
  | completed _ _ _ _ _ _ _ _ _ _ => cases seeded

theorem Coherent.waitsFor_of_predicted (coherent : Coherent grammar tokens chart) {first : Item}
    {predictor : ItemRef} (startPresent : chart.item? start = some first)
    (provenance : first.provenance = .predicted predictor)
    (present : chart.item? place = some item) (sameProduction : first.production = item.production)
    (sameOrigin : first.origin = item.origin) : chart.WaitsFor grammar place predictor := by
  cases coherent.founded startPresent with
  | seed _ => cases provenance
  | scanned _ _ _ _ _ _ => cases provenance
  | completed _ _ _ _ _ _ _ _ _ _ => cases provenance
  | @predicted _ waiting id production predictorPresent sameColumn _ found awaited =>
      cases provenance
      refine ⟨item, waiting, production, present, predictorPresent, ?_, awaited, ?_⟩
      · rw [← sameProduction]
        exact found
      · rw [← sameOrigin]
        exact sameColumn.symm

/-- What the walk along predictions finds leads out of the parse. -/
theorem Coherent.leadsOut_of_waitingFor (coherent : Coherent grammar tokens chart)
    {origin : ItemRef} {steps : Nat} {chain : List ItemRef}
    (walked : chart.waitingFor origin steps place = .ok chain)
    (present : chart.item? place = some item) : chart.LeadsOut grammar place (place :: chain) := by
  induction steps using Nat.strong_induction_on generalizing place item chain with
  | _ steps inductionHypothesis =>
      unfold Chart.waitingFor at walked
      cases formed : chart.startForm? place with
      | none => simp [formed] at walked
      | some start =>
          obtain ⟨first, startPresent, sameProduction, sameOrigin, seeded | ⟨predictor, provenance⟩⟩ :=
            coherent.startForm_shares formed present
          · simp only [formed, startPresent, Option.map_some, seeded, Except.ok.injEq] at walked
            subst walked
            exact ⟨rfl, .singleton _, place, rfl,
              coherent.outermost_of_seed startPresent seeded present sameProduction sameOrigin⟩
          · simp only [formed, startPresent, Option.map_some, provenance] at walked
            have waits := coherent.waitsFor_of_predicted startPresent provenance present
              sameProduction sameOrigin
            obtain ⟨_, waiting, _, _, predictorPresent, _⟩ := id waits
            cases steps with
            | zero => cases walked
            | succ fewer =>
                cases rest : chart.waitingFor origin fewer predictor with
                | error fault => simp [rest, Except.map] at walked
                | ok outer =>
                    obtain rfl : predictor :: outer = chain := by
                      simpa [rest, Except.map] using walked
                    obtain ⟨_, linked, last, isLast, outermost⟩ :=
                      inductionHypothesis fewer (Nat.lt_succ_self _) rest predictorPresent
                    exact ⟨rfl, .cons_cons waits linked, last, by simpa using isLast, outermost⟩

theorem Coherent.leadsOut_of_derivationChain (coherent : Coherent grammar tokens chart)
    {chain : List ItemRef} (chained : chart.derivationChain place = .ok chain)
    (present : chart.item? place = some item) : chart.LeadsOut grammar place chain := by
  unfold Chart.derivationChain at chained
  cases walked : chart.waitingFor place (chart.itemCount - 1) place with
  | error fault => simp [walked, Except.map] at chained
  | ok outer =>
      obtain rfl : place :: outer = chain := by simpa [walked, Except.map] using chained
      exact coherent.leadsOut_of_waitingFor walked present

end Chains

section Steps

variable {place : ItemRef} {step : TraceStep} {failing : Token}

theorem Coherent.read_of_columnToken (coherent : Coherent grammar tokens chart) {column : Nat}
    {token : Token} (inside : column + 1 < chart.size)
    (recorded : Diagnosis.columnToken chart (column + 1) = .ok token) :
    tokens[column]? = some token := by
  have leading : chart.token? (column + 1) = tokens[column]? := coherent.recorded inside
  unfold Diagnosis.columnToken at recorded
  rw [leading] at recorded
  cases read : tokens[column]? with
  | none => simp [read] at recorded
  | some found => simpa [read] using recorded

/-- The tokens that led into the columns after an origin are those from the origin on. -/
theorem Coherent.tokensBetween_eq (coherent : Coherent grammar tokens chart) {origin column : Nat}
    {matched : List Token} (inside : column < chart.size)
    (collected : Diagnosis.tokensBetween chart origin column = .ok matched) :
    matched = between tokens origin column := by
  have paired := Traversal.mapM_eq_ok_iff.mp collected
  have counted : column - origin = matched.length := by simpa using paired.length_eq
  apply List.ext_getElem?
  intro index
  by_cases below : index < matched.length
  · have short := coherent.short
    have here := (List.forall₂_iff_get.mp paired).2 index (by simpa [counted] using below) below
    simp only [List.get_eq_getElem, List.getElem_range', Nat.one_mul] at here
    have position : origin + 1 + index = origin + index + 1 := by omega
    rw [position] at here
    have read := coherent.read_of_columnToken (by omega) here
    rw [between, List.getElem?_drop, List.getElem?_take_of_lt (by omega), read,
      List.getElem?_eq_getElem below]
  · have past : (between tokens origin column).length ≤ index := by
      simp only [between, List.length_drop, List.length_take]
      omega
    rw [List.getElem?_eq_none (Nat.le_of_not_lt below), List.getElem?_eq_none past]

/-- The step of an item that has matched nothing points at the token that led into the next column,
or behind the last column at the token that could not be consumed. -/
theorem exists_next_of_openStep {item : Item}
    (opened : Diagnosis.openStep grammar chart place item failing = .ok step) :
    ∃ next : Token,
      (if place.column + 1 < chart.size then Diagnosis.columnToken chart (place.column + 1)
        else .ok failing) = .ok next ∧
      step =
        { rule := grammar.dotted item.production item.dot, column := place.column,
          origin := item.origin, span := Span.point next.start, matched := "" } := by
  unfold Diagnosis.openStep at opened
  dsimp only at opened
  split at opened
  next more =>
    obtain ⟨next, recorded, made⟩ := Traversal.exists_ok_of_bind opened
    exact ⟨next, by rw [if_pos more, recorded], (Except.ok.inj made).symm⟩
  next last => exact ⟨failing, if_neg last, (Except.ok.inj opened).symm⟩

/-- The step of an item that has matched tokens goes from the first of them to the last. -/
theorem exists_ends_of_matchedStep {item : Item}
    (made : Diagnosis.matchedStep grammar chart place item = .ok step) :
    ∃ first last matched, Diagnosis.columnToken chart (item.origin + 1) = .ok first ∧
      Diagnosis.columnToken chart place.column = .ok last ∧
      Diagnosis.tokensBetween chart item.origin place.column = .ok matched ∧
      step =
        { rule := grammar.dotted item.production item.dot, column := place.column,
          origin := item.origin, span := first.span.merge last.span,
          matched := String.intercalate " " (matched.map Token.text) } := by
  unfold Diagnosis.matchedStep at made
  obtain ⟨first, firstRecorded, made⟩ := Traversal.exists_ok_of_bind made
  obtain ⟨last, lastRecorded, made⟩ := Traversal.exists_ok_of_bind made
  obtain ⟨matched, collected, made⟩ := Traversal.exists_ok_of_bind made
  exact ⟨first, last, matched, firstRecorded, lastRecorded, collected, (Except.ok.inj made).symm⟩

theorem Coherent.reports_of_traceStep (consistent : grammar.Consistent)
    (coherent : Coherent grammar tokens chart)
    (traced : Diagnosis.traceStep grammar chart failing place = .ok step) :
    step.Reports grammar tokens chart place := by
  unfold Diagnosis.traceStep at traced
  cases present : chart.item? place with
  | none => simp [present] at traced
  | some item =>
      have inside := Chart.column_lt_size present
      have origin := coherent.origin_le consistent present
      simp only [present] at traced
      by_cases unmoved : item.origin = place.column
      · rw [if_pos unmoved] at traced
        obtain ⟨next, _, rfl⟩ := exists_next_of_openStep traced
        refine ⟨⟨item, present, rfl, rfl⟩, rfl, origin, ?_⟩
        simp [unmoved]
      · rw [if_neg unmoved] at traced
        obtain ⟨first, last, matched, _, _, collected, rfl⟩ := exists_ends_of_matchedStep traced
        refine ⟨⟨item, present, rfl, rfl⟩, rfl, origin, ?_⟩
        rw [coherent.tokensBetween_eq inside collected]

end Steps

section Tiling

/-- The steps that report a chain tile the columns before it. The induction is on the chain: the
outer steps end in the column where the innermost one begins. -/
theorem tiles_of_reports {chain : List ItemRef} {steps : List TraceStep} {place : ItemRef}
    (leads : chart.LeadsOut grammar place chain)
    (reports : List.Forall₂ (TraceStep.Reports grammar tokens chart) chain steps) :
    Trace.Tiles tokens place.column steps := by
  induction reports generalizing place with
  | nil =>
      have first := leads.first
      cases first
  | @cons inner step outer steps report others inductionHypothesis =>
      obtain ⟨first, linked, last, isLast, outermost⟩ := leads
      obtain rfl := Option.some.inj first
      obtain ⟨item, present, sameOrigin, _⟩ := report.item
      cases others with
      | nil =>
          obtain rfl : inner = last := by simpa using isLast
          obtain ⟨start, startPresent, _, atStart⟩ := outermost
          obtain rfl := Option.some.inj (present.symm.trans startPresent)
          have fromStart : step.origin = 0 := sameOrigin.symm.trans atStart
          refine ⟨by simp [report.column], by simp [fromStart], .singleton _, ?_⟩
          simp [fromStart, between_zero, report.column]
      | @cons next outerStep more moreSteps outerReport moreReports =>
          obtain ⟨waits, linkedOuter⟩ := List.isChain_cons_cons.mp linked
          obtain ⟨same, _, _, samePresent, _, _, _, begins⟩ := waits
          obtain rfl := Option.some.inj (present.symm.trans samePresent)
          have joined : outerStep.column = step.origin := by
            rw [outerReport.column, ← begins, sameOrigin]
          have outerTiles := inductionHypothesis
            ⟨rfl, linkedOuter, last, by simpa using isLast, outermost⟩
          refine ⟨by simp [report.column], by simpa using outerTiles.outermost,
            .cons_cons joined outerTiles.adjacent, ?_⟩
          rw [List.reverse_cons, List.flatMap_append, outerTiles.covered, ← begins, sameOrigin,
            List.flatMap_singleton, ← between_zero, between_append (Nat.zero_le _) report.ordered,
            report.column, between_zero]

/-- A trace has a step for each item of its chain. -/
theorem Diagnosis.exists_chain_of_trace {failing : Token} {place : ItemRef} {name : String}
    {trace : Trace} (traced : Diagnosis.trace grammar chart failing place name = .ok trace) :
    ∃ chain, chart.derivationChain place = .ok chain ∧ trace.expected = name ∧
      List.Forall₂ (fun place step => Diagnosis.traceStep grammar chart failing place = .ok step)
        chain trace.steps := by
  unfold Diagnosis.trace at traced
  obtain ⟨chain, chained, traced⟩ := Traversal.exists_ok_of_bind traced
  obtain ⟨steps, stepped, made⟩ := Traversal.exists_ok_of_bind traced
  cases made
  exact ⟨chain, chained, rfl, Traversal.mapM_eq_ok_iff.mp stepped⟩

theorem Coherent.genuine_of_trace (consistent : grammar.Consistent)
    (coherent : Coherent grammar tokens chart) {failing : Token} {place : ItemRef} {item : Item}
    {name : String} {trace : Trace} (present : chart.item? place = some item)
    (expecting : Diagnosis.expectation? grammar item = some name)
    (traced : Diagnosis.trace grammar chart failing place name = .ok trace) :
    trace.Genuine grammar tokens chart place.column := by
  obtain ⟨chain, chained, rfl, stepped⟩ := Diagnosis.exists_chain_of_trace traced
  have leads := coherent.leadsOut_of_derivationChain chained present
  have reports : List.Forall₂ (TraceStep.Reports grammar tokens chart) chain trace.steps :=
    stepped.imp fun _ _ made => coherent.reports_of_traceStep consistent made
  exact ⟨⟨place, item, chain, rfl, present, expecting, chained, leads, reports⟩,
    tiles_of_reports leads reports⟩

/-- A diagnosis tells of the token it was made for, and each of its traces starts from an item that
expects a terminal. -/
theorem Diagnosis.exists_traces_of_build {column limit : Nat} {token : Token}
    {diagnosis : Diagnosis}
    (made : Diagnosis.build grammar chart column token limit = .ok diagnosis) :
    diagnosis.token = token ∧ ∀ trace ∈ diagnosis.traces, ∃ index item name,
      chart.item? ⟨column, index⟩ = some item ∧
      Diagnosis.expectation? grammar item = some name ∧
      Diagnosis.trace grammar chart token ⟨column, index⟩ name = .ok trace := by
  unfold Diagnosis.build at made
  cases found : chart.column? column with
  | none => simp [found] at made
  | some reached =>
      simp only [found] at made
      obtain ⟨traces, mapped, made⟩ := Traversal.exists_ok_of_bind made
      cases made
      refine ⟨rfl, ?_⟩
      intro trace member
      obtain ⟨⟨index, name⟩, candidate, traced⟩ := Traversal.exists_step_of_mem mapped member
      have listed : (index, name) ∈ Diagnosis.candidates grammar reached := by
        split at candidate
        next => exact candidate
        next => exact List.mem_of_mem_take candidate
      obtain ⟨item, symbol, itemAt, awaited, terminal, rfl⟩ := mem_candidates.mp listed
      have present : chart.item? ⟨column, index⟩ = some item :=
        Chart.item?_eq_some_iff.mpr ⟨reached, found, itemAt⟩
      have expecting : Diagnosis.expectation? grammar item = some (grammar.name symbol) := by
        simp [Diagnosis.expectation?, awaited, terminal]
      exact ⟨index, item, _, present, expecting, traced⟩

theorem Coherent.genuine_of_build (consistent : grammar.Consistent)
    (coherent : Coherent grammar tokens chart) {column limit : Nat} {token : Token}
    {diagnosis : Diagnosis}
    (made : Diagnosis.build grammar chart column token limit = .ok diagnosis) :
    ∀ trace ∈ diagnosis.traces, trace.Genuine grammar tokens chart column := by
  intro trace member
  obtain ⟨index, item, name, present, expecting, traced⟩ :=
    (Diagnosis.exists_traces_of_build made).2 trace member
  exact coherent.genuine_of_trace consistent present expecting traced

theorem Stops.made {limits : Limits} {error : ParseError} {diagnosis : Diagnosis}
    (stops : Stops grammar tokens limits chart error)
    (diagnosed : error.diagnosis? = some diagnosis) :
    chart.size = diagnosis.column + 1 ∧ ∃ token limit,
      Diagnosis.build grammar chart diagnosis.column token limit = .ok diagnosis := by
  cases stops with
  | refused ready _ _ explains =>
      cases diagnosed
      obtain ⟨limit, made⟩ := explains.made
      rw [explains.sameColumn]
      exact ⟨ready.size, _, limit, made⟩
  | unfinished ready _ explains =>
      cases diagnosed
      obtain ⟨limit, made⟩ := explains.made
      rw [explains.sameColumn]
      exact ⟨ready.size, _, limit, made⟩
  | manyTokens _ _ _ _ => cases diagnosed
  | manyItems _ _ => cases diagnosed

end Tiling

namespace Declaration

/-- The chain of every item of a parse leads out to the start production, and every trace of a
syntax error tiles the columns up to the last one and the tokens consumed on the way. -/
theorem run_traces_tile_consumed_tokens {declaration : Declaration} {grammar : Grammar}
    (built : declaration.build = .ok grammar) (limits : Limits) (tokens : List Token) :
    (∀ place item, (grammar.run limits tokens).chart.item? place = some item →
        ∃ chain, (grammar.run limits tokens).chart.derivationChain place = .ok chain ∧
          (grammar.run limits tokens).chart.LeadsOut grammar place chain) ∧
      ∀ error diagnosis, (grammar.run limits tokens).result = .error error →
        error.diagnosis? = some diagnosis →
        (grammar.run limits tokens).chart.size = diagnosis.column + 1 ∧
          ∀ trace ∈ diagnosis.traces,
            trace.Genuine grammar tokens (grammar.run limits tokens).chart diagnosis.column := by
  obtain ⟨start, numbers⟩ := numbers_of_build built
  have coherent := numbers.consistent.run_coherent limits tokens
  constructor
  · intro place item present
    obtain ⟨chain, chained, _⟩ := coherent.exists_derivationChain present
    exact ⟨chain, chained, coherent.leadsOut_of_derivationChain chained present⟩
  · intro error diagnosis failed diagnosed
    rcases numbers.consistent.run_cases limits tokens with
      ⟨value, returned, _⟩ | ⟨same, stopped, stops⟩
    · rw [returned] at failed
      cases failed
    · obtain rfl := Except.error.inj (stopped.symm.trans failed)
      obtain ⟨size, token, limit, made⟩ := stops.made diagnosed
      exact ⟨size, coherent.genuine_of_build numbers.consistent made⟩

/-- The last token of `1 + 1 1` is refused, and the first trace of its diagnosis tiles the three
tokens before it. -/
theorem brokenSum_trace_tiles :
    ∃ diagnosis trace, ((sums.grammar "sum").run { maxTraces := 1 } brokenSum).result =
        .error (.unexpectedToken diagnosis) ∧ diagnosis.traces = [trace] ∧
      Trace.Tiles brokenSum 3 trace.steps := by
  have traces := (run_traces_tile_consumed_tokens build_sums { maxTraces := 1 } brokenSum).2
  have failed : (match ((sums.grammar "sum").run { maxTraces := 1 } brokenSum).result with
      | .error (.unexpected diagnosis _ _) =>
          diagnosis.column == 3 && diagnosis.traces.length == 1
      | _ => false) = true := by
    decide +kernel
  split at failed
  next diagnosis token expected failure =>
    obtain ⟨rfl, rfl⟩ := run_repeatsDiagnosis build_sums failure
    simp only [Bool.and_eq_true, beq_iff_eq] at failed
    obtain ⟨trace, only⟩ := List.length_eq_one_iff.mp failed.2
    have genuine := (traces _ diagnosis failure rfl).2 trace (by simp [only])
    rw [failed.1] at genuine
    exact ⟨diagnosis, trace, failure, only, genuine.tiles⟩
  next => contradiction

end Declaration

end EarleyChart
