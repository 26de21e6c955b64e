import EarleyChart.Source.Span

/-!
Contract: the two rows that show a span in its source line.

The first row is the line that holds the start of the span, behind its number; the second has a
caret under each covered character of that line, and one caret where none is covered.
-/

namespace EarleyChart.Source

/-- A number flush right in a field of four. -/
def lineNumber (line : Nat) : List Char :=
  let digits := Nat.toDigits 10 line
  List.replicate (4 - digits.length) ' ' ++ digits

/-- A line without the carriage returns at its end. -/
def trimReturns (line : List Char) : List Char :=
  (line.reverse.dropWhile (· == '\r')).reverse

/-- The characters of the span's line before the span. -/
def leading (input : String) (span : Span) : List Char :=
  lastLine (Utf8.take span.start.offset input.toList)

/-- The characters of the span's line from the start of the span on. -/
def trailing (input : String) (span : Span) : List Char :=
  firstLine (Utf8.drop span.start.offset input.toList)

/-- The characters of the span's line that the span covers. -/
def covered (input : String) (span : Span) : List Char :=
  let start := Utf8.floor span.start.offset input.toList
  Utf8.take (Utf8.floor span.stop.offset input.toList - start) (trailing input span)

/-- The row with the number and the text of the line. -/
def sourceRow (input : String) (span : Span) : List Char :=
  lineNumber span.start.line ++ [' ', '|', ' ']
    ++ trimReturns (leading input span ++ trailing input span)

/-- The row with the carets. -/
def caretRow (input : String) (span : Span) : List Char :=
  "     | ".toList ++ List.replicate (leading input span).length ' '
    ++ List.replicate (max (covered input span).length 1) '^'

/-- Shows the line of a span with carets under what the span covers. -/
def highlight (input : String) (span : Span) : String :=
  String.ofList (sourceRow input span ++ ['\n'] ++ caretRow input span ++ ['\n'])

end EarleyChart.Source
