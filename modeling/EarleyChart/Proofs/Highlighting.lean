import Mathlib.Data.List.Basic
import EarleyChart.Proofs.Boundaries
import EarleyChart.Source.Highlight

/-!
Contract: the rows that show a span in its source line, seen from the whole source.

`Source.Parts` cuts a source into the lines before that of a span, the line itself with what the span
covers of it, and the lines behind. The first row shows that line without the carriage returns at its
end (`Source.showsLine_highlight`). The carets of the second row are counted on the line with them, and
its margin is that of a line number of up to four digits: `Source.carets_stand_under_span` says when the
carets nevertheless stand under the characters that the span covers, and how many there are.
-/

namespace EarleyChart.Source

/-- The line that a span starts in. -/
def spanLine (input : String) (span : Span) : List Char :=
  leading input span ++ trailing input span

/-- The line of a span as it is shown. -/
def shownLine (input : String) (span : Span) : List Char :=
  trimReturns (spanLine input span)

/-- A line of a text, without its line break, that an offset lies in or at the end of. -/
def IsLineAt (text : List Char) (offset : Nat) (line : List Char) : Prop :=
  ∃ head tail, text = head ++ line ++ tail ∧ '\n' ∉ line ∧
    (head = [] ∨ ∃ lines, head = lines ++ ['\n']) ∧ (tail = [] ∨ ∃ lines, tail = '\n' :: lines) ∧
    Utf8.size head ≤ offset ∧ offset ≤ Utf8.size head + Utf8.size line

/-- A text of two lines, of which the first is a number and a whole line of the source without the
carriage returns at its end. -/
def ShowsLine (input : String) (span : Span) (shown : String) : Prop :=
  ∃ first second line printed returns, shown.toList = first ++ ['\n'] ++ second ++ ['\n'] ∧
    '\n' ∉ first ∧ '\n' ∉ second ∧
    IsLineAt input.toList (Utf8.floor span.start.offset input.toList) line ∧
    line = printed ++ List.replicate returns '\r' ∧ printed.getLast? ≠ some '\r' ∧
    first = lineNumber span.start.line ++ [' ', '|', ' '] ++ printed

section Lines

theorem exists_returns (line : List Char) : ∃ returns,
    line = trimReturns line ++ List.replicate returns '\r' ∧
      (trimReturns line).getLast? ≠ some '\r' := by
  refine ⟨(line.reverse.takeWhile (· == '\r')).length, ?_, ?_⟩
  · have same : line.reverse.takeWhile (· == '\r') =
        List.replicate (line.reverse.takeWhile (· == '\r')).length '\r' := by
      rw [List.eq_replicate_iff]
      refine ⟨rfl, fun c member => ?_⟩
      simpa using List.mem_takeWhile_imp member
    rw [← List.reverse_inj, List.reverse_append, List.reverse_replicate, ← same, trimReturns,
      List.reverse_reverse, List.takeWhile_append_dropWhile]
  · rw [trimReturns, List.getLast?_reverse]
    intro stops
    have passed := List.head?_dropWhile_not (· == '\r') line.reverse
    rw [stops] at passed
    simp at passed

theorem trimReturns_starts (line : List Char) : trimReturns line <+: line := by
  obtain ⟨returns, parts, _⟩ := exists_returns line
  exact ⟨_, parts.symm⟩

/-- A line number has no line break. -/
theorem not_mem_lineNumber (line : Nat) : '\n' ∉ lineNumber line := by
  intro broken
  rcases List.mem_append.mp broken with blank | digit
  · exact absurd (List.eq_of_mem_replicate blank) (by decide)
  · have isDigit := Nat.isDigit_of_mem_toDigits (by decide) (by decide) digit
    simp at isDigit

/-- Up to four digits fill the field of a line number. -/
theorem length_lineNumber (line : Nat) :
    (lineNumber line).length = max 4 (Nat.toDigits 10 line).length := by
  simp only [lineNumber, List.length_append, List.length_replicate]
  omega

theorem length_lineNumber_eq_iff (line : Nat) : (lineNumber line).length = 4 ↔ line < 10000 := by
  have fits : (Nat.toDigits 10 line).length ≤ 4 ↔ line < 10 ^ 4 :=
    Nat.length_toDigits_le_iff (by decide) (by decide)
  rw [length_lineNumber, ← show (10 : Nat) ^ 4 = 10000 from rfl, ← fits]
  omega

end Lines

/-- A source, cut around the line of a span and what the span covers of it. -/
structure Parts (input : String) (span : Span) (head rest tail : List Char) : Prop where
  text : input.toList = head ++ spanLine input span ++ tail
  trailing : trailing input span = covered input span ++ rest
  starts : head = [] ∨ ∃ lines, head = lines ++ ['\n']
  ends : tail = [] ∨ ∃ lines, tail = '\n' :: lines
  start : Utf8.floor span.start.offset input.toList = Utf8.size head + Utf8.size (leading input span)
  /-- A span that ends before it starts covers nothing. -/
  reversed : Utf8.floor span.stop.offset input.toList ≤ Utf8.floor span.start.offset input.toList →
    covered input span = []
  /-- Any other covers its line up to its end or that of the line. -/
  stop : Utf8.floor span.start.offset input.toList ≤ Utf8.floor span.stop.offset input.toList →
    min (Utf8.floor span.stop.offset input.toList)
        (Utf8.size head + Utf8.size (spanLine input span)) =
      Utf8.floor span.start.offset input.toList + Utf8.size (covered input span)

theorem exists_parts (input : String) (span : Span) : ∃ head rest tail,
    Parts input span head rest tail := by
  obtain ⟨head, before, starts⟩ := exists_lastLine (Utf8.take span.start.offset input.toList)
  obtain ⟨tail, after, ends⟩ := exists_firstLine (Utf8.drop span.start.offset input.toList)
  change _ = head ++ leading input span at before
  change _ = trailing input span ++ tail at after
  have whole := Utf8.take_append_drop span.start.offset input.toList
  have start : Utf8.floor span.start.offset input.toList =
      Utf8.size head + Utf8.size (leading input span) := by
    rw [Utf8.floor, before, Utf8.size_append]
  have again : Utf8.size (Utf8.take (Utf8.floor span.stop.offset input.toList) input.toList) =
      Utf8.floor span.stop.offset input.toList := by
    rw [Utf8.take_floor, Utf8.floor]
  rw [before, after] at whole
  refine ⟨head, Utf8.drop (Utf8.floor span.stop.offset input.toList -
    Utf8.floor span.start.offset input.toList) (trailing input span), tail, ?_, ?_, starts, ends,
    start, ?_, ?_⟩
  · simp only [spanLine, ← whole, List.append_assoc]
  · exact (Utf8.take_append_drop _ _).symm
  · intro reversed
    rw [covered, Nat.sub_eq_zero_of_le reversed]
    exact Utf8.take_size_append [] (trailing input span)
  · intro ordered
    obtain ⟨length, stop⟩ := Nat.exists_eq_add_of_le ordered
    have counted : Utf8.size (covered input span) = min length (Utf8.size (trailing input span)) := by
      rw [covered, stop, Nat.add_sub_cancel_left]
      by_cases within : length ≤ Utf8.size (trailing input span)
      · -- The stop is a boundary of the source, so it is one of the line.
        rw [stop, start, ← Utf8.size_append, ← whole, Utf8.take_size_add,
          Utf8.take_append_of_le_size within, Utf8.size_append] at again
        omega
      · rw [Utf8.take_of_size_le (Nat.le_of_not_le within)]
        omega
    rw [counted, stop, start, spanLine, Utf8.size_append]
    omega

section Rows

variable {input : String} {span : Span} {head rest tail : List Char}

theorem not_mem_spanLine (input : String) (span : Span) : '\n' ∉ spanLine input span :=
  fun broken => (List.mem_append.mp broken).elim (not_mem_lastLine _) (not_mem_firstLine _)

theorem Parts.isLineAt (parts : Parts input span head rest tail) :
    IsLineAt input.toList (Utf8.floor span.start.offset input.toList) (spanLine input span) := by
  refine ⟨head, tail, parts.text, not_mem_spanLine input span, parts.starts, parts.ends, ?_, ?_⟩
  · rw [parts.start]
    exact Nat.le_add_right _ _
  · rw [parts.start, spanLine, Utf8.size_append]
    omega

theorem Parts.lineBounds_eq (parts : Parts input span head rest tail) :
    lineBounds input (Utf8.floor span.start.offset input.toList) =
      (Utf8.size head, Utf8.size head + Utf8.size (spanLine input span)) := by
  have start := parts.start
  have leadingLine : lastLine (Utf8.take span.start.offset input.toList) = leading input span := rfl
  have trailingLine : firstLine (Utf8.drop span.start.offset input.toList) =
      Source.trailing input span := rfl
  rw [Utf8.floor] at start
  rw [lineBounds, Utf8.take_floor, Utf8.drop_floor, leadingLine, trailingLine, start, spanLine,
    Utf8.size_append]
  simp only [Prod.mk.injEq]
  omega

theorem toList_highlight (input : String) (span : Span) : (highlight input span).toList =
    sourceRow input span ++ ['\n'] ++ caretRow input span ++ ['\n'] := by
  rw [highlight, String.toList_ofList]

theorem caretRow_eq (input : String) (span : Span) : caretRow input span =
    [' ', ' ', ' ', ' ', ' ', '|', ' '] ++ List.replicate (leading input span).length ' ' ++
      List.replicate (max (covered input span).length 1) '^' :=
  rfl

theorem not_mem_caretRow (input : String) (span : Span) : '\n' ∉ caretRow input span := by
  intro broken
  simp only [caretRow_eq, List.mem_append] at broken
  rcases broken with (margin | blank) | caret
  · exact absurd margin (by decide)
  · exact absurd (List.eq_of_mem_replicate blank) (by decide)
  · exact absurd (List.eq_of_mem_replicate caret) (by decide)

theorem not_mem_sourceRow (input : String) (span : Span) : '\n' ∉ sourceRow input span := by
  have line := not_mem_spanLine input span
  have shown : '\n' ∉ shownLine input span :=
    fun broken => line ((trimReturns_starts _).subset broken)
  intro broken
  simp only [sourceRow, List.mem_append] at broken
  rcases broken with (number | margin) | shownBroken
  · exact not_mem_lineNumber _ number
  · exact absurd margin (by decide)
  · exact shown shownBroken

/-- A span is shown by two lines, the first of which has the whole line of its start. -/
theorem showsLine_highlight (input : String) (span : Span) :
    ShowsLine input span (highlight input span) := by
  obtain ⟨head, rest, tail, parts⟩ := exists_parts input span
  obtain ⟨returns, line, last⟩ := exists_returns (spanLine input span)
  exact ⟨_, _, _, _, returns, toList_highlight input span, not_mem_sourceRow input span,
    not_mem_caretRow input span, parts.isLineAt, line, last, rfl⟩

end Rows

section Carets

variable {input : String} {span : Span} {head rest tail : List Char}

/-- The byte offset in the source of a character of a start of the span's line. -/
def offsetIn (input : String) (span : Span) (line : List Char) (index : Nat) : Nat :=
  (lineBounds input (Utf8.floor span.start.offset input.toList)).1 + Utf8.size (line.take index)

/-- How many characters of a start of the span's line lie in the range of the span. -/
def coveredIn (input : String) (span : Span) (line : List Char) : Nat :=
  ((List.range line.length).filter fun index =>
    Utf8.floor span.start.offset input.toList ≤ offsetIn input span line index ∧
      offsetIn input span line index < Utf8.floor span.stop.offset input.toList).length

/-- The first caret stands under the character that the span starts at, or just past the shown line if
the span starts there. -/
def CaretUnderStart (input : String) (span : Span) : Prop :=
  ∃ index ≤ (shownLine input span).length,
    offsetIn input span (shownLine input span) index =
        Utf8.floor span.start.offset input.toList ∧
      (caretRow input span).idxOf '^' =
        (lineNumber span.start.line ++ [' ', '|', ' ']).length + index

theorem idxOf_caretRow (input : String) (span : Span) :
    (caretRow input span).idxOf '^' = 7 + (leading input span).length := by
  have blank : '^' ∉ [' ', ' ', ' ', ' ', ' ', '|', ' '] ++
      List.replicate (leading input span).length ' ' := by
    intro member
    rcases List.mem_append.mp member with margin | blank
    · exact absurd margin (by decide)
    · exact absurd (List.eq_of_mem_replicate blank) (by decide)
  obtain ⟨more, carets⟩ := Nat.exists_eq_add_of_le' (Nat.le_max_right (covered input span).length 1)
  rw [caretRow_eq, carets, List.replicate_succ, List.idxOf_append_of_notMem blank,
    List.idxOf_cons_self, List.length_append, List.length_replicate]
  rfl

theorem count_caretRow (input : String) (span : Span) :
    (caretRow input span).count '^' = max (covered input span).length 1 := by
  have margin : [' ', ' ', ' ', ' ', ' ', '|', ' '].count '^' = 0 := by decide
  rw [caretRow_eq, List.count_append, List.count_append, List.count_replicate_self, margin,
    List.count_replicate]
  simp

/-- Of two places in a line the one with fewer characters before it has the lower offset. -/
theorem size_take_lt_iff {line : List Char} {first second : Nat} (firstInside : first ≤ line.length)
    (secondInside : second ≤ line.length) :
    Utf8.size (line.take first) < Utf8.size (line.take second) ↔ first < second := by
  have less {lower upper : Nat} (inside : upper ≤ line.length) (ordered : lower < upper) :
      Utf8.size (line.take lower) < Utf8.size (line.take upper) := by
    apply Utf8.size_lt_of_length_lt (List.take_prefix _ _) (List.take_prefix _ _)
    rw [List.length_take, List.length_take]
    omega
  constructor
  · intro lower
    apply Nat.lt_of_not_le
    intro notLess
    rcases Nat.lt_or_eq_of_le notLess with greater | rfl
    · exact Nat.lt_asymm lower (less firstInside greater)
    · exact Nat.lt_irrefl _ lower
  · exact less secondInside

theorem size_take_eq_iff {line : List Char} {first second : Nat} (firstInside : first ≤ line.length)
    (secondInside : second ≤ line.length) :
    Utf8.size (line.take first) = Utf8.size (line.take second) ↔ first = second := by
  have less := size_take_lt_iff firstInside secondInside
  have greater := size_take_lt_iff secondInside firstInside
  omega

/-- Of the places of a list those in a range of a given length. -/
theorem length_filter_range (count first length : Nat) :
    ((List.range count).filter fun index => first ≤ index ∧ index < first + length).length =
      min length (count - first) := by
  induction count with
  | zero => simp
  | succ count inductionHypothesis =>
      rw [List.range_succ, List.filter_append, List.length_append, inductionHypothesis,
        List.filter_singleton]
      by_cases inside : first ≤ count ∧ count < first + length
      · simp only [inside, and_self, decide_true, cond_true, List.length_singleton]
        omega
      · simp only [inside, decide_false, cond_false, List.length_nil]
        omega

/-- The offset of a place in a start of the span's line, by what the whole line has before it. -/
theorem Parts.offsetIn_eq (parts : Parts input span head rest tail) {line : List Char}
    (starts : line <+: spanLine input span) {index : Nat} (inside : index ≤ line.length) :
    offsetIn input span line index =
      Utf8.size head + Utf8.size ((spanLine input span).take index) := by
  obtain ⟨others, whole⟩ := starts
  rw [offsetIn, parts.lineBounds_eq, ← whole, List.take_append_of_le_length inside]

theorem Parts.start_eq (parts : Parts input span head rest tail) :
    Utf8.floor span.start.offset input.toList =
      Utf8.size head + Utf8.size ((spanLine input span).take (leading input span).length) := by
  rw [parts.start, spanLine, List.take_left]

/-- A span covers a character of its line exactly if that is among those behind its start which the
span takes. -/
theorem Parts.covers_iff (parts : Parts input span head rest tail) {line : List Char}
    (starts : line <+: spanLine input span) {index : Nat} (inside : index < line.length) :
    Utf8.floor span.start.offset input.toList ≤ offsetIn input span line index ∧
        offsetIn input span line index < Utf8.floor span.stop.offset input.toList ↔
      (leading input span).length ≤ index ∧
        index < (leading input span).length + (covered input span).length := by
  have insideLine : index < (spanLine input span).length :=
    Nat.lt_of_lt_of_le inside starts.length_le
  have place := parts.offsetIn_eq starts (Nat.le_of_lt inside)
  have coveredLine : leading input span ++ covered input span <+: spanLine input span := by
    rw [spanLine, parts.trailing, ← List.append_assoc]
    exact List.prefix_append _ _
  have fromStart : Utf8.floor span.start.offset input.toList ≤ offsetIn input span line index ↔
      (leading input span).length ≤ index := by
    have before := size_take_lt_iff (Nat.le_of_lt insideLine)
      (List.prefix_append (leading input span) (Source.trailing input span)).length_le
    have start := parts.start_eq
    rw [spanLine] at before start place
    omega
  rw [fromStart]
  apply and_congr_right
  intro behind
  by_cases ordered : Utf8.floor span.start.offset input.toList ≤
      Utf8.floor span.stop.offset input.toList
  · have stop := parts.stop ordered
    have upToStop := size_take_lt_iff (Nat.le_of_lt insideLine) coveredLine.length_le
    have upToEnd := size_take_lt_iff (Nat.le_of_lt insideLine) (Nat.le_refl _)
    rw [← List.prefix_iff_eq_take.mp coveredLine, Utf8.size_append, List.length_append] at upToStop
    rw [List.take_length] at upToEnd
    rw [← upToStop, place]
    have start := parts.start
    omega
  · have reversed := parts.reversed (Nat.le_of_not_le ordered)
    have notBefore := fromStart.mpr behind
    rw [reversed, List.length_nil]
    omega

theorem Parts.coveredIn_eq (parts : Parts input span head rest tail) {line : List Char}
    (starts : line <+: spanLine input span) : coveredIn input span line =
      min (covered input span).length (line.length - (leading input span).length) := by
  rw [coveredIn, ← length_filter_range]
  refine congrArg List.length (List.filter_congr fun index member => ?_)
  exact decide_eq_decide.mpr (parts.covers_iff starts (List.mem_range.mp member))

/-- The first caret stands under the start of the span exactly if the line number has up to four digits
and the shown line reaches as far as the start. -/
theorem Parts.caretUnderStart_iff (parts : Parts input span head rest tail) :
    CaretUnderStart input span ↔ span.start.line < 10000 ∧
      Utf8.floor span.start.offset input.toList ≤
        offsetIn input span (shownLine input span) (shownLine input span).length := by
  have shown : shownLine input span <+: spanLine input span := trimReturns_starts _
  have inLine : (leading input span).length ≤ (spanLine input span).length :=
    (List.prefix_append _ _).length_le
  have reaches : Utf8.floor span.start.offset input.toList ≤
        offsetIn input span (shownLine input span) (shownLine input span).length ↔
      (leading input span).length ≤ (shownLine input span).length := by
    have before := size_take_lt_iff shown.length_le inLine
    rw [parts.offsetIn_eq shown (Nat.le_refl _), parts.start_eq]
    omega
  have margin : (lineNumber span.start.line ++ [' ', '|', ' ']).length =
      (lineNumber span.start.line).length + 3 :=
    List.length_append
  rw [reaches, ← length_lineNumber_eq_iff, CaretUnderStart, idxOf_caretRow, margin]
  constructor
  · rintro ⟨index, inside, place, caret⟩
    rw [parts.offsetIn_eq shown inside, parts.start_eq, Nat.add_left_cancel_iff,
      size_take_eq_iff (Nat.le_trans inside shown.length_le) inLine] at place
    omega
  · rintro ⟨digits, inside⟩
    refine ⟨(leading input span).length, inside, ?_, by omega⟩
    rw [parts.offsetIn_eq shown inside, parts.start_eq]

/-- The rows of a span. The first caret stands under the start of the span as long as the line number
has up to four digits and the span does not start behind the shown line. There are as many carets as
the span covers characters of its line, those counted that are not shown, and at least one. -/
theorem carets_stand_under_span (input : String) (span : Span) :
    (highlight input span).toList =
        sourceRow input span ++ ['\n'] ++ caretRow input span ++ ['\n'] ∧
      sourceRow input span =
        lineNumber span.start.line ++ [' ', '|', ' '] ++ shownLine input span ∧
      (CaretUnderStart input span ↔ span.start.line < 10000 ∧
        Utf8.floor span.start.offset input.toList ≤
          offsetIn input span (shownLine input span) (shownLine input span).length) ∧
      (caretRow input span).count '^' =
        max (coveredIn input span (spanLine input span)) 1 ∧
      ((caretRow input span).count '^' = max (coveredIn input span (shownLine input span)) 1 ↔
        coveredIn input span (spanLine input span) = coveredIn input span (shownLine input span) ∨
          coveredIn input span (spanLine input span) ≤ 1) := by
  obtain ⟨head, rest, tail, parts⟩ := exists_parts input span
  have shown : shownLine input span <+: spanLine input span := trimReturns_starts _
  have whole := parts.coveredIn_eq (List.prefix_refl _)
  have visible := parts.coveredIn_eq shown
  have line : (spanLine input span).length =
      (leading input span).length + (covered input span).length + rest.length := by
    rw [spanLine, parts.trailing, List.length_append, List.length_append, Nat.add_assoc]
  have shorter := shown.length_le
  refine ⟨toList_highlight input span, rfl, parts.caretUnderStart_iff, ?_, ?_⟩
  · rw [count_caretRow, whole]
    omega
  · rw [count_caretRow, whole, visible]
    omega

/-- A line number of five digits moves the line to the right of its caret, and a carriage return that is
not shown gets a caret of its own. -/
theorem wideNumber_and_return_misplace_carets :
    ¬CaretUnderStart "ab" ⟨⟨0, 10000, 1⟩, ⟨1, 10000, 2⟩⟩ ∧
      (caretRow "a\r\nb" ⟨⟨0, 1, 1⟩, ⟨4, 2, 2⟩⟩).count '^' = 2 ∧
      coveredIn "a\r\nb" ⟨⟨0, 1, 1⟩, ⟨4, 2, 2⟩⟩ (shownLine "a\r\nb" ⟨⟨0, 1, 1⟩, ⟨4, 2, 2⟩⟩) = 1 := by
  refine ⟨?_, by decide +kernel, by decide +kernel⟩
  obtain ⟨head, rest, tail, parts⟩ := exists_parts "ab" ⟨⟨0, 10000, 1⟩, ⟨1, 10000, 2⟩⟩
  intro under
  exact absurd (parts.caretUnderStart_iff.mp under).1 (by decide)

end Carets

end EarleyChart.Source
