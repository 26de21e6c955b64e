import EarleyChart.Error
import EarleyChart.Source.Checked

/-!
Contract: the rendering of errors, as operations that can be refused.

The source is cut at byte offsets, offsets are clamped between the ends of a line, differences are
taken and machine words added, each refused where it is not allowed. A sum that is no machine word is
refused or wraps around, as the program was built (`Overflow`); `Token.Fits` says which tokens lead to no
such sum. Everywhere else offsets, lines and columns are numbers without a limit.
`EarleyChart.Diagnosis.Render` gives the same texts without faults.
-/

namespace EarleyChart

/-- What becomes of a sum that is no machine word. -/
inductive Overflow where
  | refused
  | wraps
deriving DecidableEq, Repr

namespace Checked

/-- Words are below this number. -/
def wordLimit : Nat :=
  UInt64.size

def sum (overflow : Overflow) (first second : Nat) : Except RangeFault Nat :=
  if first + second < wordLimit then .ok (first + second)
  else match overflow with
    | .refused => .error .sum
    | .wraps => .ok ((first + second) % wordLimit)

def difference (whole part : Nat) : Except RangeFault Nat :=
  if part ≤ whole then .ok (whole - part) else .error .difference

/-- The offset, or the bound that it is beyond. -/
def clamp (offset lower upper : Nat) : Except RangeFault Nat :=
  if lower ≤ upper then .ok (max lower (min offset upper)) else .error .bounds

/-- The line and column just past one character. -/
def stepPlace (overflow : Overflow) (place : Nat × Nat) (c : Char) :
    Except RangeFault (Nat × Nat) := do
  if c = '\n' then return (← sum overflow place.1 1, 1)
  else return (place.1, ← sum overflow place.2 1)

/-- The span of a token. -/
def span (overflow : Overflow) (token : Token) : Except RangeFault Span := do
  let place ← token.text.toList.foldlM (stepPlace overflow) (token.line, token.column)
  let offset ← sum overflow token.offset (bytes token.text.toList).length
  return ⟨token.start, ⟨offset, place.1, place.2⟩⟩

/-- The part of the source that a span covers. -/
def text (span : Span) (source : String) : String :=
  let stop := min span.stop.offset (bytes source.toList).length
  String.ofList ((get? source.toList span.start.offset stop).getD [])

/-- The line of a span with carets under what the span covers. -/
def highlight (source : String) (span : Span) : Except RangeFault String := do
  let start ← floor source.toList span.start.offset
  let (first, last) ← lineBounds source.toList start
  let line ← slice source.toList first last
  let lead ← slice source.toList first (min start last)
  let stop ← clamp (← floor source.toList span.stop.offset) first last
  let width := max ((get? source.toList (min start last) stop).elim 0 List.length) 1
  return String.ofList
    (Source.lineNumber span.start.line ++ [' ', '|', ' '] ++ Source.trimReturns line ++ ['\n'] ++
      ("     | ".toList ++ List.replicate lead.length ' ' ++ List.replicate width '^') ++ ['\n'])

/-- The line of a step, its production padded to `width` characters. -/
def step (source : Option String) (width : Nat) (step : TraceStep) : Except RangeFault String := do
  let matched := match source with
    | some source => if step.span.isEmpty then step.matched else text step.span source
    | none => step.matched
  let padding ← difference width step.rule.length
  let tail :=
    if matched.isEmpty then s!"  at {step.span.start.display}\n"
    else s!"  matched {Quoted.text matched} at {step.span.display}\n"
  return "    " ++ step.rule ++ String.ofList (List.replicate padding ' ') ++ tail

/-- The lines of a trace. -/
def trace (source : Option String) (trace : Trace) : Except RangeFault String := do
  let width := (trace.steps.map fun step => step.rule.length).foldl max 0
  let lines ← trace.steps.mapM (step source width)
  return s!"  expecting {trace.expected}:\n" ++ String.join lines

/-- The offending token in its line, if the source is at hand. -/
def shown (overflow : Overflow) (token : Token) (source : Option String) :
    Except RangeFault String := do
  match source with
  | some source => return "\n" ++ (← highlight source (← span overflow token))
  | none => return ""

/-- The text of a diagnosis. -/
def diagnosis (overflow : Overflow) (diagnosis : Diagnosis) (source : Option String) :
    Except RangeFault String := do
  let shown ← shown overflow diagnosis.token source
  let traces ← diagnosis.traces.mapM (trace source)
  let head :=
    if diagnosis.traces.isEmpty then ""
    else "\npartial derivations that could have continued:\n"
  let omitted :=
    if diagnosis.omitted = 0 then "" else s!"  ... and {diagnosis.omitted} more\n"
  return diagnosis.renderExpected ++ shown ++ head ++ String.join traces ++ omitted

/-- The message of an error with its place in the source and its diagnosis. -/
def error (overflow : Overflow) (error : ParseError) (source : String) :
    Except RangeFault String := do
  let head := "error: " ++ error.message ++ "\n"
  match error with
  | .unexpected found _ _ => return head ++ (← diagnosis overflow found (some source))
  | .ended found _ _ => return head ++ (← diagnosis overflow found (some source))
  | .unrecognized position _ => return head ++ "\n" ++ (← highlight source (Span.point position))
  | _ => return head

end Checked

/-- A position whose offset, line and column are machine words. -/
structure Position.Fits (position : Position) : Prop where
  offset : position.offset < Checked.wordLimit
  line : position.line < Checked.wordLimit
  column : position.column < Checked.wordLimit

/-- A token whose ends are positions of machine words. Where a sum that is no such word is refused, those
behind each of its characters are too: its end is counted one character after the other, and a column
can pass the words before a line break sets it back. Where sums wrap around, only the ends matter. -/
structure Token.Fits (overflow : Overflow) (token : Token) : Prop where
  start : token.start.Fits
  stop : token.stop.Fits
  between : overflow = .refused →
    ∀ read, read <+: token.text.toList → (token.start.advance read).Fits

end EarleyChart
