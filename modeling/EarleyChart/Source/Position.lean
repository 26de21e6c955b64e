import EarleyChart.Text.Utf8

/-!
Contract: positions in a source text, as byte offset, line and column.

Lines and columns count from one, columns in characters. A byte offset that lies past the end or
inside a character denotes the boundary before it.
-/

namespace EarleyChart.Source

/-- The end of `chars` that follows its last line break. -/
def lastLine (chars : List Char) : List Char :=
  (chars.reverse.takeWhile (· != '\n')).reverse

/-- The start of `chars` up to its first line break. -/
def firstLine (chars : List Char) : List Char :=
  chars.takeWhile (· != '\n')

/-- First and last byte offset of the line that contains `offset`, its line break left out. -/
def lineBounds (input : String) (offset : Nat) : Nat × Nat :=
  let before := Utf8.take offset input.toList
  let after := Utf8.drop offset input.toList
  (Utf8.size before - Utf8.size (lastLine before), Utf8.size before + Utf8.size (firstLine after))

end EarleyChart.Source

namespace EarleyChart

/-- A place in a source text. Its numbers have no limit here; `EarleyChart.Diagnosis.Checked` says what
becomes of those that are no machine words. -/
structure Position where
  offset : Nat
  line : Nat
  column : Nat
deriving DecidableEq, Repr, Inhabited

namespace Position

/-- Where a text starts. -/
def start : Position :=
  ⟨0, 1, 1⟩

/-- The place of a byte offset in `input`. -/
def ofOffset (input : String) (offset : Nat) : Position :=
  let before := Utf8.take offset input.toList
  ⟨Utf8.size before, 1 + before.count '\n', 1 + (Source.lastLine before).length⟩

/-- The place just past the characters of `text`, which starts at `position`. -/
def advance (position : Position) (text : List Char) : Position :=
  ⟨position.offset + Utf8.size text,
   position.line + text.count '\n',
   if text.contains '\n' then 1 + (Source.lastLine text).length
   else position.column + text.length⟩

def display (position : Position) : String :=
  s!"line {position.line}, column {position.column}"

end Position

end EarleyChart
