import EarleyChart.Proofs.Placement
import EarleyChart.Proofs.Traces

/-!
Contract: the part of the source that each step of a trace shows.

`TraceStep.Anchored` says which tokens a step is made from: the one behind its column if it has
matched nothing, else the first and the last of those it has matched. Tokens of a lexer lie in the source
one behind the other, so that merging the spans of two of them covers the source from one to the other
(`Token.covers_merge`). `Declaration.trace_spans_cover_source` puts both together.
-/

namespace EarleyChart

/-- The token before which a column stands; in the last column that is the one reported. -/
def Diagnosis.tokenBehind (diagnosis : Diagnosis) (tokens : List Token) (column : Nat) :
    Option Token :=
  if column = diagnosis.column then some diagnosis.token else tokens[column]?

/-- A step has matched nothing and is the empty span at the start of the next token. -/
structure TraceStep.PointsAt (step : TraceStep) (next : Token) : Prop where
  span : step.span = Span.point next.start
  matched : step.matched = ""

/-- A step has matched tokens and spans them from the first to the last. -/
structure TraceStep.Spans (step : TraceStep) (tokens : List Token) (first last : Token) : Prop where
  firstRead : tokens[step.origin]? = some first
  lastRead : tokens[step.column - 1]? = some last
  span : step.span = first.span.merge last.span
  matched : step.matched =
    String.intercalate " " ((between tokens step.origin step.column).map Token.text)

/-- A step is made from the tokens that its columns stand for. -/
inductive TraceStep.Anchored (tokens : List Token) (diagnosis : Diagnosis) (step : TraceStep) :
    Prop where
  | unmoved (sameColumn : step.origin = step.column) {next : Token}
      (behind : diagnosis.tokenBehind tokens step.column = some next) (points : step.PointsAt next) :
      Anchored tokens diagnosis step
  | moved (later : step.origin < step.column) {first last : Token}
      (spans : step.Spans tokens first last) : Anchored tokens diagnosis step

/-- A span covers a source from the start of one token to the end of another. -/
structure Span.Covers (span : Span) (source : String) (first last : Token) : Prop where
  text : Utf8.slice? first.offset last.stop.offset source.toList =
    some (span.text source).toList
  start : span.start = first.start
  stop : span.stop = last.stop
  startPlace : span.start = Position.ofOffset source span.start.offset
  stopPlace : span.stop = Position.ofOffset source span.stop.offset

section Anchors

variable {grammar : Grammar} {tokens : List Token} {chart : Chart} {diagnosis : Diagnosis}
  {step : TraceStep}

theorem Coherent.anchored_of_traceStep (consistent : grammar.Consistent)
    (coherent : Coherent grammar tokens chart) {place : ItemRef}
    (size : chart.size = diagnosis.column + 1)
    (traced : Diagnosis.traceStep grammar chart diagnosis.token place = .ok step) :
    step.Anchored tokens diagnosis := by
  have report := coherent.reports_of_traceStep consistent traced
  unfold Diagnosis.traceStep at traced
  cases present : chart.item? place with
  | none => simp [present] at traced
  | some item =>
      have inside := Chart.column_lt_size present
      have origin := coherent.origin_le consistent present
      simp only [present] at traced
      by_cases sameColumn : item.origin = place.column
      · rw [if_pos sameColumn] at traced
        obtain ⟨next, recorded, rfl⟩ := exists_next_of_openStep traced
        refine .unmoved sameColumn ?_ ⟨rfl, rfl⟩
        by_cases isLast : place.column = diagnosis.column
        · rw [if_neg (by omega)] at recorded
          rw [Diagnosis.tokenBehind, if_pos isLast]
          exact congrArg some (Except.ok.inj recorded)
        · have more : place.column + 1 < chart.size := by omega
          rw [if_pos more] at recorded
          rw [Diagnosis.tokenBehind, if_neg isLast]
          exact coherent.read_of_columnToken more recorded
      · rw [if_neg sameColumn] at traced
        obtain ⟨first, last, matched, firstRecorded, lastRecorded, _, rfl⟩ :=
          exists_ends_of_matchedStep traced
        have later : item.origin < place.column := by omega
        have lastColumn : place.column - 1 + 1 = place.column := by omega
        have firstRead : tokens[item.origin]? = some first :=
          coherent.read_of_columnToken (by omega) firstRecorded
        have lastRead : tokens[place.column - 1]? = some last := by
          apply coherent.read_of_columnToken (by omega)
          rw [lastColumn]
          exact lastRecorded
        exact .moved later ⟨firstRead, lastRead, rfl, report.matched⟩

/-- Every step that a diagnosis shows is anchored to the tokens of the parse. -/
theorem Coherent.anchored_of_build (consistent : grammar.Consistent)
    (coherent : Coherent grammar tokens chart) {limit : Nat} {token : Token}
    (size : chart.size = diagnosis.column + 1)
    (made : Diagnosis.build grammar chart diagnosis.column token limit = .ok diagnosis) :
    ∀ trace ∈ diagnosis.traces, ∀ step ∈ trace.steps, step.Anchored tokens diagnosis := by
  intro trace traceMember step stepMember
  obtain ⟨rfl, traces⟩ := Diagnosis.exists_traces_of_build made
  obtain ⟨index, item, name, _, _, traced⟩ := traces trace traceMember
  obtain ⟨chain, _, _, stepped⟩ := Diagnosis.exists_chain_of_trace traced
  obtain ⟨position, inside, rfl⟩ := List.mem_iff_getElem.mp stepMember
  have insideChain : position < chain.length := stepped.length_eq ▸ inside
  exact coherent.anchored_of_traceStep consistent size (stepped.get insideChain inside)

end Anchors

section Spans

variable {source : String} {first last : Token}

/-- An offset that a slice starts or ends at is a boundary of the text. -/
theorem Utf8.slice?_eq_some {start stop : Nat} {chars slice : List Char}
    (sliced : Utf8.slice? start stop chars = some slice) :
    start ≤ stop ∧ Utf8.floor start chars = start ∧ Utf8.floor stop chars = stop := by
  unfold Utf8.slice? at sliced
  by_cases boundaries : start ≤ stop ∧ Utf8.floor start chars = start ∧
      Utf8.floor stop chars = stop
  · exact boundaries
  · rw [if_neg boundaries] at sliced
    contradiction

/-- The text of a span between two boundaries is the slice of the source between them. -/
theorem Span.slice?_text (span : Span) (source : String)
    (ordered : span.start.offset ≤ span.stop.offset)
    (start : Utf8.floor span.start.offset source.toList = span.start.offset)
    (stop : Utf8.floor span.stop.offset source.toList = span.stop.offset) :
    Utf8.slice? span.start.offset span.stop.offset source.toList =
      some (span.text source).toList := by
  have inside : span.stop.offset ≤ Utf8.size source.toList := by
    rw [← stop]
    exact Utf8.floor_le_size _ _
  rw [Span.text, Nat.min_eq_left inside, Utf8.slice?, if_pos ⟨ordered, start, stop⟩,
    Option.getD_some, String.toList_ofList]

/-- The merged spans of two tokens of a source, the second not before the first, cover the source from
the start of the first to the end of the second. -/
theorem Token.covers_merge (firstStands : first.StandsIn source) (lastStands : last.StandsIn source)
    (startOrdered : first.offset ≤ last.offset)
    (stopOrdered : first.stop.offset ≤ last.stop.offset) :
    (first.span.merge last.span).Covers source first last := by
  have starts : (first.span.merge last.span).start = first.start := if_pos startOrdered
  have stops : (first.span.merge last.span).stop = last.stop := by
    by_cases same : last.stop.offset ≤ first.stop.offset
    · -- The two ends have one offset, so they are one position of the source.
      have sameOffset : first.stop.offset = last.stop.offset :=
        Nat.le_antisymm stopOrdered same
      calc (first.span.merge last.span).stop
          _ = first.stop := if_pos same
          _ = Position.ofOffset source first.stop.offset := firstStands.stop
          _ = Position.ofOffset source last.stop.offset := by rw [sameOffset]
          _ = last.stop := lastStands.stop.symm
    · exact if_neg same
  obtain ⟨_, startBoundary, _⟩ := Utf8.slice?_eq_some firstStands.text
  obtain ⟨lastOrdered, _, stopBoundary⟩ := Utf8.slice?_eq_some lastStands.text
  have stopOffset : last.stop.offset = last.offset + Utf8.size last.text.toList := rfl
  have ordered : first.offset ≤ last.stop.offset := by omega
  refine ⟨?_, starts, stops, ?_, ?_⟩
  · have sliced := Span.slice?_text (first.span.merge last.span) source
    rw [starts, stops] at sliced
    exact sliced ordered startBoundary stopBoundary
  · rw [starts]
    exact firstStands.start
  · rw [stops]
    exact lastStands.stop

end Spans

/-- Of two tokens of an input the later one in the list starts and ends no earlier. -/
theorem Lexer.covers_of_tokenize {lexer : Lexer} (boundaries : lexer.EndsAtBoundaries)
    {source : String} {tokens : List Token}
    (all : lexer.tokenize source = .ok tokens) {origin final : Nat} (ordered : origin ≤ final)
    {first last : Token} (firstRead : tokens[origin]? = some first)
    (lastRead : tokens[final]? = some last) :
    (first.span.merge last.span).Covers source first last := by
  have stands {token : Token} (member : token ∈ tokens) : token.StandsIn source :=
    standsIn_of_mem_tokens boundaries (mem_tokens_of_tokenize boundaries all member)
  have firstStands := stands (List.mem_of_getElem? firstRead)
  have lastStands := stands (List.mem_of_getElem? lastRead)
  have lastOrdered : last.offset ≤ last.stop.offset := Nat.le_add_right _ _
  rcases Nat.eq_or_lt_of_le ordered with rfl | earlier
  · obtain rfl := Option.some.inj (firstRead.symm.trans lastRead)
    exact Token.covers_merge firstStands firstStands (Nat.le_refl _) (Nat.le_refl _)
  · obtain ⟨firstInside, rfl⟩ := List.getElem?_eq_some_iff.mp firstRead
    obtain ⟨lastInside, rfl⟩ := List.getElem?_eq_some_iff.mp lastRead
    have apart := List.pairwise_iff_getElem.mp (tokens_apart boundaries all) _ _ firstInside
      lastInside earlier
    have firstOrdered : tokens[origin].offset ≤ tokens[origin].stop.offset := Nat.le_add_right _ _
    exact Token.covers_merge firstStands lastStands (by omega) (by omega)

namespace Declaration

/-- Where a lexer has found the tokens of a parse, every step of every trace of a syntax error shows
the source that it has matched: nothing, at the start of the token behind its column, or all from the
start of the first token it has matched to the end of the last, with their texts. -/
theorem trace_spans_cover_source {declaration : Declaration} {grammar : Grammar}
    (built : declaration.build = .ok grammar) (limits : Limits) {lexer : Lexer}
    (boundaries : lexer.EndsAtBoundaries) {source : String} {tokens : List Token}
    (all : lexer.tokenize source = .ok tokens) {error : ParseError} {diagnosis : Diagnosis}
    (failed : (grammar.run limits tokens).result = .error error)
    (diagnosed : error.diagnosis? = some diagnosis) :
    ∀ trace ∈ diagnosis.traces, ∀ step ∈ trace.steps,
      step.origin = step.column ∧
          (∃ next, diagnosis.tokenBehind tokens step.column = some next ∧ step.PointsAt next) ∨
        step.origin < step.column ∧
          ∃ first last, step.Spans tokens first last ∧ step.span.Covers source first last := by
  obtain ⟨start, numbers⟩ := numbers_of_build built
  have coherent := numbers.consistent.run_coherent limits tokens
  intro trace traceMember step stepMember
  rcases numbers.consistent.run_cases limits tokens with
    ⟨value, returned, _⟩ | ⟨same, stopped, stops⟩
  · rw [returned] at failed
    contradiction
  · obtain rfl := Except.error.inj (stopped.symm.trans failed)
    obtain ⟨size, token, limit, made⟩ := stops.made diagnosed
    cases coherent.anchored_of_build numbers.consistent size made trace traceMember step
      stepMember with
    | unmoved sameColumn behind points => exact .inl ⟨sameColumn, _, behind, points⟩
    | @moved later first last spans =>
        refine .inr ⟨later, first, last, spans, ?_⟩
        rw [spans.span]
        exact Lexer.covers_of_tokenize boundaries all (by omega) spans.firstRead spans.lastRead

/-- Texts of one or more words that end with a stop. -/
def sentences : Declaration where
  terminals := ["word", "stop"]
  rules := [⟨"sentence", ["words", "stop"], none⟩, ⟨"words", ["words", "word"], none⟩,
    ⟨"words", ["word"], none⟩]

/-- Two words on two lines are no sentence, and a step of a trace shows them with their line break. -/
theorem twoLines_trace_covers_source :
    ∃ tokens diagnosis trace step, Lexer.wordsByLine.tokenize "oné\ntwo" = .ok tokens ∧
      ((sentences.grammar "sentence").run {} tokens).result = .error (.unexpectedEnd diagnosis) ∧
      trace ∈ diagnosis.traces ∧ step ∈ trace.steps ∧ step.span.text "oné\ntwo" = "oné\ntwo" ∧
      step.matched = "oné two" := by
  have built : sentences.build = .ok (sentences.grammar "sentence") := rfl
  have all : Lexer.wordsByLine.tokenize "oné\ntwo" =
      .ok [⟨"word", "oné", 1, 1, 0⟩, ⟨"word", "two", 2, 1, 5⟩] := rfl
  have computed : (match ((sentences.grammar "sentence").run {}
        [⟨"word", "oné", 1, 1, 0⟩, ⟨"word", "two", 2, 1, 5⟩]).result with
      | .error (.ended diagnosis _ _) => diagnosis.traces.any fun trace =>
          trace.steps.any fun step => step.origin == 0 && step.column == 2
      | _ => false) = true := by
    decide +kernel
  split at computed
  next diagnosis token expected failed =>
    obtain ⟨rfl, rfl⟩ := run_repeatsDiagnosis built failed
    obtain ⟨trace, traceMember, computed⟩ := List.any_eq_true.mp computed
    obtain ⟨step, stepMember, computed⟩ := List.any_eq_true.mp computed
    simp only [Bool.and_eq_true, beq_iff_eq] at computed
    obtain ⟨origin, column⟩ := computed
    have boundaries : Lexer.wordsByLine.EndsAtBoundaries := Lexer.endsAtBoundaries_ofPatterns _
    have shown := trace_spans_cover_source built {} boundaries all failed rfl trace traceMember step
      stepMember
    rw [origin, column] at shown
    rcases shown with ⟨same, _⟩ | ⟨_, first, last, spans, covers⟩
    · contradiction
    · obtain ⟨firstRead, lastRead, _, matched⟩ := spans
      rw [origin] at firstRead
      rw [column] at lastRead
      obtain rfl := Option.some.inj firstRead
      obtain rfl := Option.some.inj lastRead
      have sliced : some "oné\ntwo".toList = some (step.span.text "oné\ntwo").toList := covers.text
      refine ⟨_, diagnosis, trace, step, all, failed, traceMember, stepMember, ?_, ?_⟩
      · exact (String.toList_inj.mp (Option.some.inj sliced)).symm
      · rw [matched, origin, column]
        rfl
  next => contradiction

end Declaration

end EarleyChart
