import EarleyChart.Diagnosis.Checked
import EarleyChart.Proofs.Highlighting
import EarleyChart.Proofs.Traversals

/-!
Contract: rendering an error against any source meets no fault.

The checked forms of the renderers cut the source at byte offsets, clamp offsets between the ends of a
line, take differences and add machine words, and refuse where one of these is not allowed. Tokens,
spans and traces need have nothing to do with the source. Each checked form comes to what the renderer
gives, one lemma each, and `rendering_meets_no_fault` puts them together; the one thing asked for is
that the ends of the offending token are machine words, and every position between them too where a sum
that is none is refused.
-/

namespace EarleyChart

namespace Checked

section Tokens

variable {overflow : Overflow} {position : Position} {text : List Char}

theorem sum_eq {first second : Nat} (fits : first + second < wordLimit) :
    sum overflow first second = .ok (first + second) :=
  if_pos fits

theorem sum_wraps (first second : Nat) :
    sum .wraps first second = .ok ((first + second) % wordLimit) := by
  rw [sum]
  split
  · rw [Nat.mod_eq_of_lt ‹_›]
  · rfl

theorem stepPlace_eq (overflow : Overflow) {c : Char} (fits : (position.advance [c]).Fits) :
    stepPlace overflow (position.line, position.column) c =
      .ok ((position.advance [c]).line, (position.advance [c]).column) := by
  by_cases isBreak : c = '\n'
  · subst isBreak
    have line : sum overflow position.line 1 = .ok (position.line + 1) := sum_eq fits.line
    rw [stepPlace, if_pos rfl, line]
    rfl
  · rw [Position.advance_singleton_of_ne isBreak] at fits ⊢
    rw [stepPlace, if_neg isBreak, sum_eq fits.column]
    rfl

/-- Stepping over a text stays within machine words if the positions on the way do. -/
theorem foldlM_stepPlace_eq
    (fits : ∀ read, read <+: text → (position.advance read).Fits) :
    text.foldlM (stepPlace overflow) (position.line, position.column) =
      .ok ((position.advance text).line, (position.advance text).column) := by
  induction text generalizing position with
  | nil => simp [Position.advance, pure, Except.pure]
  | cons c rest inductionHypothesis =>
      have later (read : List Char) (starts : read <+: rest) :
          ((position.advance [c]).advance read).Fits := by
        rw [← Position.advance_append]
        exact fits (c :: read) (List.cons_prefix_cons.mpr ⟨rfl, starts⟩)
      have first := stepPlace_eq overflow
        (fits [c] (List.cons_prefix_cons.mpr ⟨rfl, List.nil_prefix⟩))
      have behind := inductionHypothesis later
      rw [← Position.advance_append] at behind
      rw [List.foldlM_cons, first]
      exact behind

theorem stepPlace_wraps (position : Position) (c : Char) :
    stepPlace .wraps (position.line % wordLimit, position.column % wordLimit) c =
      .ok ((position.advance [c]).line % wordLimit, (position.advance [c]).column % wordLimit) := by
  by_cases isBreak : c = '\n'
  · subst isBreak
    rw [stepPlace, if_pos rfl, sum_wraps, Nat.mod_add_mod]
    rfl
  · rw [stepPlace, if_neg isBreak, sum_wraps, Nat.mod_add_mod,
      Position.advance_singleton_of_ne isBreak]
    rfl

/-- Where sums wrap, stepping over a text finds its end up to the limit of words. -/
theorem foldlM_stepPlace_wraps (text : List Char) (position : Position) :
    text.foldlM (stepPlace .wraps) (position.line % wordLimit, position.column % wordLimit) =
      .ok ((position.advance text).line % wordLimit,
        (position.advance text).column % wordLimit) := by
  induction text generalizing position with
  | nil => simp [Position.advance, pure, Except.pure]
  | cons c rest inductionHypothesis =>
      have later := inductionHypothesis (position.advance [c])
      rw [← Position.advance_append] at later
      rw [List.foldlM_cons, stepPlace_wraps]
      exact later

theorem span_eq {token : Token} (fits : token.Fits overflow) :
    span overflow token = .ok token.span := by
  have stop := fits.stop
  rw [Token.stop_eq_advance] at stop
  have places :
      token.text.toList.foldlM (stepPlace overflow) (token.start.line, token.start.column) =
      .ok ((token.start.advance token.text.toList).line,
        (token.start.advance token.text.toList).column) := by
    cases overflow with
    | refused => exact foldlM_stepPlace_eq (fits.between rfl)
    | wraps =>
        have wrapped := foldlM_stepPlace_wraps token.text.toList token.start
        rwa [Nat.mod_eq_of_lt fits.start.line, Nat.mod_eq_of_lt fits.start.column,
          Nat.mod_eq_of_lt stop.line, Nat.mod_eq_of_lt stop.column] at wrapped
  have offset : sum overflow token.offset (Utf8.size token.text.toList) = _ := sum_eq stop.offset
  change token.text.toList.foldlM (stepPlace overflow) (token.line, token.column) = _ at places
  rw [span, places, length_bytes, Token.span, Token.stop_eq_advance]
  simp only [bind, Except.bind, offset]
  rfl

end Tokens

theorem text_eq (span : Span) (source : String) : text span source = span.text source := by
  rw [text, length_bytes, get?_eq]
  rfl

section Rows

variable {source : String} {span : Span} {head rest tail : List Char}

theorem slice_spanLine (parts : Source.Parts source span head rest tail) :
    slice source.toList (Utf8.size head) (Utf8.size head + Utf8.size (Source.spanLine source span)) =
      .ok (Source.spanLine source span) := by
  rw [parts.text]
  exact slice_eq (Utf8.slice?_size_append head _ tail)

theorem slice_leading (parts : Source.Parts source span head rest tail) :
    slice source.toList (Utf8.size head) (Utf8.floor span.start.offset source.toList) =
      .ok (Source.leading source span) := by
  have cut : source.toList =
      head ++ Source.leading source span ++ (Source.trailing source span ++ tail) := by
    rw [parts.text, Source.spanLine]
    simp only [List.append_assoc]
  rw [parts.start, cut]
  exact slice_eq (Utf8.slice?_size_append head _ _)

/-- Between offsets that are not in order lies no text. -/
theorem length_get?_of_le {text : List Char} {first last : Nat} (reversed : last ≤ first) :
    (get? text first last).elim 0 List.length = 0 := by
  rw [get?]
  split
  · have nothing : Utf8.take 0 (Utf8.drop first text) = [] := Utf8.take_size_append [] _
    rw [Nat.sub_eq_zero_of_le reversed, nothing]
    rfl
  · rfl

/-- Up to the end of the span, or of its line, lies what the span covers. -/
theorem length_get?_covered (parts : Source.Parts source span head rest tail) :
    (get? source.toList (Utf8.floor span.start.offset source.toList)
        (max (Utf8.size head) (min (Utf8.floor span.stop.offset source.toList)
          (Utf8.size head + Utf8.size (Source.spanLine source span))))).elim 0 List.length =
      (Source.covered source span).length := by
  have start := parts.start
  rcases Nat.le_total (Utf8.floor span.start.offset source.toList)
    (Utf8.floor span.stop.offset source.toList) with ordered | reversed
  · have cut : source.toList =
        head ++ Source.leading source span ++ Source.covered source span ++ (rest ++ tail) := by
      rw [parts.text, Source.spanLine, parts.trailing]
      simp only [List.append_assoc]
    have sliced := Utf8.slice?_size_append (head ++ Source.leading source span)
      (Source.covered source span) (rest ++ tail)
    rw [← cut, Utf8.size_append, ← start] at sliced
    rw [parts.stop ordered, Nat.max_eq_right (by omega), get?_eq, sliced]
    rfl
  · rw [parts.reversed reversed]
    exact length_get?_of_le (by omega)

theorem highlight_eq (source : String) (span : Span) :
    highlight source span = .ok (Source.highlight source span) := by
  obtain ⟨head, rest, tail, parts⟩ := Source.exists_parts source span
  have start := parts.start
  have size : Utf8.size (Source.spanLine source span) =
      Utf8.size (Source.leading source span) + Utf8.size (Source.trailing source span) :=
    Utf8.size_append _ _
  have inLine : min (Utf8.floor span.start.offset source.toList)
      (Utf8.size head + Utf8.size (Source.spanLine source span)) =
        Utf8.floor span.start.offset source.toList := by
    omega
  rw [highlight, floor_eq, floor_eq]
  simp only [bind, Except.bind, lineBounds_eq, parts.lineBounds_eq, slice_spanLine parts, inLine,
    slice_leading parts, clamp, Nat.le_add_right, if_true, length_get?_covered parts]
  rfl

end Rows

section Traces

theorem step_eq (source : Option String) {width : Nat} {found : TraceStep}
    (fits : found.rule.length ≤ width) :
    step source width found = .ok (found.render source width) := by
  have padding : difference width found.rule.length = .ok (width - found.rule.length) :=
    if_pos fits
  simp only [step, text_eq, padding]
  rfl

/-- No production of a trace is longer than the widest of them. -/
theorem trace_eq (source : Option String) (found : Trace) :
    trace source found = .ok (found.render source) := by
  have steps := Traversal.mapM_eq_ok_map fun traceStep (member : traceStep ∈ found.steps) =>
    have widest : traceStep.rule.length ≤
        (found.steps.map fun step => step.rule.length).foldl max 0 := by
      have listed := List.mem_map_of_mem (f := fun step : TraceStep => step.rule.length) member
      rw [List.foldl_max, Nat.zero_max]
      exact List.le_max?_getD_of_mem listed
    step_eq source widest
  rw [trace, steps]
  rfl

end Traces

variable {overflow : Overflow}

theorem diagnosis_eq {found : Diagnosis} (fits : found.token.Fits overflow)
    (source : Option String) :
    diagnosis overflow found source = .ok (found.render source) := by
  have traces := Traversal.mapM_eq_ok_map fun trace (_ : trace ∈ found.traces) =>
    trace_eq source trace
  unfold diagnosis
  rw [traces]
  cases source with
  | none => rfl
  | some source =>
      simp only [shown, span_eq fits, bind, Except.bind, highlight_eq]
      rfl

theorem error_eq {found : ParseError} (source : String)
    (fits : ∀ diagnosis, found.diagnosis? = some diagnosis → diagnosis.token.Fits overflow) :
    error overflow found source = .ok (found.render source) := by
  unfold error ParseError.render
  cases found with
  | unexpected diagnosis _ _ =>
      simp only [diagnosis_eq (fits diagnosis rfl)]
      rfl
  | ended diagnosis _ _ =>
      simp only [diagnosis_eq (fits diagnosis rfl)]
      rfl
  | unrecognized position _ =>
      simp only [highlight_eq]
      rfl
  | _ => rfl

end Checked

/-- Rendering an error or a diagnosis against any source gives a text, with every cut, clamp, difference
and sum on the way an allowed one. A span is shown by two lines, of which the first has the whole line
that it starts in. -/
theorem rendering_meets_no_fault (overflow : Overflow) (source : String) :
    (∀ error : ParseError,
        (∀ diagnosis, error.diagnosis? = some diagnosis → diagnosis.token.Fits overflow) →
        Checked.error overflow error source = .ok (error.render source)) ∧
      (∀ diagnosis : Diagnosis, diagnosis.token.Fits overflow → ∀ shown : Option String,
        Checked.diagnosis overflow diagnosis shown = .ok (diagnosis.render shown)) ∧
      (∀ offset, Checked.floor source.toList offset = .ok (Utf8.floor offset source.toList) ∧
        Checked.lineBounds source.toList offset = .ok (Source.lineBounds source offset) ∧
        Checked.position source.toList offset = .ok (Position.ofOffset source offset)) ∧
      ∀ span : Span, Checked.text span source = span.text source ∧
        Checked.highlight source span = .ok (Source.highlight source span) ∧
        Source.ShowsLine source span (Source.highlight source span) := by
  refine ⟨fun error fits => ?_, fun diagnosis fits shown => ?_, fun offset => ?_, fun span => ?_⟩
  · exact Checked.error_eq source fits
  · exact Checked.diagnosis_eq fits shown
  · exact ⟨Checked.floor_eq _ _, Checked.lineBounds_eq _ _, Checked.position_eq _ _⟩
  · exact ⟨Checked.text_eq _ _, Checked.highlight_eq _ _, Source.showsLine_highlight _ _⟩

/-- A diagnosis whose token and trace have offsets inside the characters of the source. -/
def unrelatedDiagnosis : Diagnosis where
  token := ⟨"number", "1", 1, 2, 1⟩
  column := 1
  expected := ["string"]
  traces := [⟨"string", [⟨"list ::= left_bracket • list_items", 1, 0, ⟨⟨1, 1, 2⟩, ⟨3, 1, 4⟩⟩, "["⟩]⟩]
  omitted := 0

theorem unrelatedDiagnosis_rendered :
    unrelatedDiagnosis.token.Fits .refused ∧
      Checked.error .refused (.unexpectedToken unrelatedDiagnosis) "éé" =
        .ok ("error: unexpected token `1` at line 1, column 2\nexpected one of: string\n\n" ++
          "   1 | éé\n     | ^\n\npartial derivations that could have continued:\n" ++
          "  expecting string:\n    list ::= left_bracket • list_items  at line 1, column 2\n") := by
  have fits : unrelatedDiagnosis.token.Fits .refused := by
    refine ⟨⟨by decide, by decide, by decide⟩, ⟨by decide, by decide, by decide⟩, ?_⟩
    intro _ read starts
    obtain rfl | ⟨_, rfl, rest⟩ := List.prefix_cons_iff.mp starts
    · exact ⟨by decide, by decide, by decide⟩
    · rw [List.prefix_nil.mp rest]
      exact ⟨by decide, by decide, by decide⟩
  have rendered := (rendering_meets_no_fault .refused "éé").1 (.unexpectedToken unrelatedDiagnosis)
    fun diagnosis found => Option.some.inj found ▸ fits
  exact ⟨fits, rendered.trans (congrArg Except.ok (by decide +kernel))⟩

end EarleyChart
