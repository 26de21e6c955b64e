import EarleyChart.Source.Position

/-!
Contract: the cuts of a text at byte offsets, as operations that can be refused.

A text has a boundary where a character starts or the text ends (`Checked.isBoundary`). A part of a text
is given out only between two boundaries in order, a part of its bytes only up to their number, and a
difference only if it is not negative; anything else is a `RangeFault`. Stepping back to a boundary,
looking for the line breaks around an offset and counting its line and column are made of these
operations. `EarleyChart.Source.Position` comes to the same on characters, without faults.
-/

namespace EarleyChart

/-- Why an operation on offsets is refused. -/
inductive RangeFault where
  /-- There are not that many bytes. -/
  | bytes
  /-- The ends of a part of a text are not boundaries of it in order. -/
  | text
  /-- The lower bound is above the upper one. -/
  | bounds
  /-- A difference is negative. -/
  | difference
  /-- A sum is no machine word. -/
  | sum
deriving DecidableEq, Repr

namespace Checked

/-- The bytes of a text in UTF-8. -/
def bytes (text : List Char) : List UInt8 :=
  text.flatMap String.utf8EncodeChar

/-- The byte of a line break. -/
def lineFeed : UInt8 :=
  10

/-- Whether a character starts at a byte offset or the text ends there. -/
def isBoundary (text : List Char) (offset : Nat) : Bool :=
  match (bytes text)[offset]? with
  | some byte => byte.IsUTF8FirstByte
  | none => offset == (bytes text).length

/-- The part of a text between two boundaries in order. -/
def get? (text : List Char) (first last : Nat) : Option (List Char) :=
  if first ≤ last ∧ isBoundary text first ∧ isBoundary text last then
    some (Utf8.take (last - first) (Utf8.drop first text))
  else none

def slice (text : List Char) (first last : Nat) : Except RangeFault (List Char) :=
  match get? text first last with
  | some part => .ok part
  | none => .error .text

def bytesBefore (text : List Char) (offset : Nat) : Except RangeFault (List UInt8) :=
  if offset ≤ (bytes text).length then .ok ((bytes text).take offset) else .error .bytes

def bytesFrom (text : List Char) (offset : Nat) : Except RangeFault (List UInt8) :=
  if offset ≤ (bytes text).length then .ok ((bytes text).drop offset) else .error .bytes

/-- Steps back to a boundary; there is nothing before the first byte. -/
def stepBack (text : List Char) : (offset : Nat) → Except RangeFault Nat
  | 0 => if isBoundary text 0 then .ok 0 else .error .difference
  | offset + 1 => if isBoundary text (offset + 1) then .ok (offset + 1) else stepBack text offset

/-- The boundary at or before an offset, or the end of the text. -/
def floor (text : List Char) (offset : Nat) : Except RangeFault Nat :=
  stepBack text (min offset (bytes text).length)

/-- Where the last line of some bytes starts. -/
def lastLineStart (bytes : List UInt8) : Nat :=
  match bytes.reverse.findIdx? (· == lineFeed) with
  | some behind => bytes.length - 1 - behind + 1
  | none => 0

/-- First and last byte offset of the line around an offset, its line break left out. -/
def lineBounds (text : List Char) (offset : Nat) : Except RangeFault (Nat × Nat) := do
  let offset := min offset (bytes text).length
  let before ← bytesBefore text offset
  let after ← bytesFrom text offset
  let last := match after.findIdx? (· == lineFeed) with
    | some length => offset + length
    | none => (bytes text).length
  return (lastLineStart before, last)

/-- The place of a byte offset. -/
def position (text : List Char) (offset : Nat) : Except RangeFault Position := do
  let offset ← floor text offset
  let before ← bytesBefore text offset
  let line ← slice text (lastLineStart before) offset
  return ⟨offset, 1 + before.count lineFeed, 1 + line.length⟩

end Checked

end EarleyChart
