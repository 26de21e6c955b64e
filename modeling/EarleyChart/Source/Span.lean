import EarleyChart.Source.Position

/-!
Contract: half-open ranges of a source text.

A span keeps both of its positions as they were given. It covers no text when it ends at or
before its start, or when one of its offsets is not a character boundary of the text at hand.
-/

namespace EarleyChart

/-- The text from `start` up to `stop`. -/
structure Span where
  start : Position
  stop : Position
deriving DecidableEq, Repr, Inhabited

namespace Span

/-- The empty span at a position. -/
def point (position : Position) : Span :=
  ⟨position, position⟩

/-- The span between two byte offsets of `input`. -/
def ofOffsets (input : String) (start stop : Nat) : Span :=
  ⟨Position.ofOffset input start, Position.ofOffset input stop⟩

/-- Length in bytes. -/
def size (span : Span) : Nat :=
  span.stop.offset - span.start.offset

def isEmpty (span : Span) : Bool :=
  span.size == 0

/-- The earlier start and the later end of two spans; on equal offsets the first span's. -/
def merge (first second : Span) : Span where
  start := if first.start.offset ≤ second.start.offset then first.start else second.start
  stop := if second.stop.offset ≤ first.stop.offset then first.stop else second.stop

/-- The part of `input` that the span covers, or nothing where the span does not fit it. -/
def text (span : Span) (input : String) : String :=
  let chars := input.toList
  let stop := min span.stop.offset (Utf8.size chars)
  String.ofList ((Utf8.slice? span.start.offset stop chars).getD [])

def display (span : Span) : String :=
  if span.isEmpty then span.start.display
  else if span.start.line = span.stop.line then
    let lastColumn := max (span.stop.column - 1) span.start.column
    s!"line {span.start.line}, columns {span.start.column}-{lastColumn}"
  else s!"{span.start.display} to {span.stop.display}"

end Span

end EarleyChart
