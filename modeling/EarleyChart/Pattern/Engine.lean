import EarleyChart.Lexer.Basic
import EarleyChart.Pattern.Reader

/-!
Contract: the engine that lexers are compiled with when the program runs.

A pattern is read and matched as in `Pattern.match?`; a set of patterns tells of each whether it
matches, and together they may be no larger than one pattern.
-/

namespace EarleyChart.Pattern

/-- Whether the pattern at a place in a list matches a text. -/
def reports (patterns : List Pattern) (text : List Char) (index : Nat) : Bool :=
  patterns[index]?.any fun pattern => (pattern.match? text).isSome

/-- What finds the matches of the pattern that a text writes. -/
def compile (text : String) : Except String (List Char → Option Nat) :=
  match read text.toList with
  | .ok whole => .ok whole.pattern.match?
  | .error fault => .error fault.message

/-- What tells which of the patterns that texts write match. -/
def compileSet (texts : List String) : Except String (List Char → Nat → Bool) :=
  match texts.mapM fun text => read text.toList with
  | .ok parts =>
      if maxSize < Part.totalSize parts then .error PatternFault.tooLarge.message
      else .ok (reports (parts.map Part.pattern))
  | .error fault => .error fault.message

/-- Patterns as this library reads and matches them. -/
def engine : PatternEngine :=
  ⟨compile, compileSet⟩

end EarleyChart.Pattern
