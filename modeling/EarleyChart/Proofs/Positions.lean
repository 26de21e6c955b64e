import Mathlib.Data.List.TakeWhile
import EarleyChart.Token

/-!
Contract: the position of a place does not depend on how it is found.

Positions advance over texts (`Position.advance_append`): over a text at once, over its parts one after
the other, or over its characters one by one. Counting the line breaks and the characters before a
byte offset comes to the position that the text before it advances to from the start
(`Position.ofOffset_size`), and so does the end of a token from its start (`Token.stop_eq_advance`).
-/

namespace EarleyChart

namespace Source

/-- A text is its own last line exactly if it has no line break. -/
theorem takeWhile_reverse_eq_iff {chars : List Char} :
    chars.reverse.takeWhile (· != '\n') = chars.reverse ↔ '\n' ∉ chars := by
  rw [List.takeWhile_eq_self_iff]
  constructor
  · intro each broken
    simpa using each '\n' (List.mem_reverse.mpr broken)
  · intro unbroken c member
    have different : c ≠ '\n' := fun same => unbroken (same ▸ List.mem_reverse.mp member)
    simpa using different

/-- The last line of a text in two parts starts in the second part if that has a line break. -/
theorem lastLine_append (first second : List Char) :
    lastLine (first ++ second) =
      if '\n' ∈ second then lastLine second else lastLine first ++ second := by
  unfold lastLine
  rw [List.reverse_append, List.takeWhile_append]
  have whole : (second.reverse.takeWhile (· != '\n')).length = second.reverse.length ↔
      '\n' ∉ second := by
    rw [← takeWhile_reverse_eq_iff]
    exact ⟨(List.takeWhile_prefix _).eq_of_length, congrArg List.length⟩
  by_cases broken : '\n' ∈ second
  · rw [if_neg (fun all => whole.mp all broken), if_pos broken]
  · rw [if_pos (whole.mpr broken), if_neg broken, List.reverse_append, List.reverse_reverse]

theorem lastLine_of_not_mem {chars : List Char} (unbroken : '\n' ∉ chars) :
    lastLine chars = chars := by
  rw [lastLine, takeWhile_reverse_eq_iff.mpr unbroken, List.reverse_reverse]

end Source

namespace Position

/-- Advancing over a text is advancing over its parts. -/
theorem advance_append (position : Position) (first second : List Char) :
    position.advance (first ++ second) = (position.advance first).advance second := by
  unfold advance
  simp only [Utf8.size_append, List.count_append, Nat.add_assoc, List.contains_eq_mem,
    decide_eq_true_eq, List.mem_append, Source.lastLine_append, mk.injEq, true_and]
  by_cases broken : '\n' ∈ second
  · simp [broken]
  · by_cases brokenFirst : '\n' ∈ first
    · simp [broken, brokenFirst, Nat.add_assoc]
    · simp [broken, brokenFirst, Nat.add_assoc]

theorem advance_cons (position : Position) (c : Char) (rest : List Char) :
    position.advance (c :: rest) = (position.advance [c]).advance rest :=
  advance_append position [c] rest

theorem advance_singleton_of_ne {c : Char} (other : c ≠ '\n') (position : Position) :
    position.advance [c] = ⟨position.offset + Utf8.size [c], position.line, position.column + 1⟩ := by
  simp [advance, other, Ne.symm other]

@[simp] theorem offset_advance_start (text : List Char) :
    (start.advance text).offset = Utf8.size text :=
  Nat.zero_add _

/-- The place of an offset is reached from the start over the text before it. -/
theorem ofOffset_size {input : String} {before after : List Char}
    (parts : input.toList = before ++ after) :
    ofOffset input (Utf8.size before) = start.advance before := by
  unfold ofOffset advance start
  rw [parts, Utf8.take_size_append]
  by_cases broken : '\n' ∈ before
  · simp [broken]
  · simp [broken, Source.lastLine_of_not_mem]

/-- A position is that of its own offset. -/
theorem ofOffset_offset (input : String) (offset : Nat) :
    ofOffset input (ofOffset input offset).offset = ofOffset input offset := by
  have same := Utf8.take_floor offset input.toList
  rw [Utf8.floor] at same
  simp only [ofOffset, same]

end Position

namespace Token

/-- Stepping over the characters of a text one by one comes to where advancing over it comes. -/
theorem foldl_stepPlace (text : List Char) (position : Position) :
    text.foldl stepPlace (position.line, position.column) =
      ((position.advance text).line, (position.advance text).column) := by
  induction text generalizing position with
  | nil => rfl
  | cons c rest inductionHypothesis =>
      have step : stepPlace (position.line, position.column) c =
          ((position.advance [c]).line, (position.advance [c]).column) := by
        by_cases isBreak : c = '\n'
        · subst isBreak
          rfl
        · rw [Position.advance_singleton_of_ne isBreak, stepPlace, if_neg isBreak]
      rw [List.foldl_cons, step, inductionHypothesis, ← Position.advance_cons]

theorem stop_eq_advance (token : Token) : token.stop = token.start.advance token.text.toList := by
  have walked := foldl_stepPlace token.text.toList token.start
  unfold stop
  rw [show (token.line, token.column) = (token.start.line, token.start.column) from rfl, walked]
  rfl

end Token
end EarleyChart
