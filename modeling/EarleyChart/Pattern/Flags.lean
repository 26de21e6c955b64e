import EarleyChart.Pattern.Basic
import EarleyChart.Pattern.Fault

/-!
Contract: the flags of a pattern and what they change.

Flags hold from where they are set to the end of the enclosing group. With blanks ignored, blanks
and comments from a number sign to the end of the line have no meaning.
-/

namespace EarleyChart.Pattern

/-- The flags in force at a place of a pattern. -/
structure Flags where
  ignoresCase : Bool := false
  multiline : Bool := false
  dotMatchesAll : Bool := false
  swapsGreed : Bool := false
  unicode : Bool := true
  returnEndsLine : Bool := false
  ignoresBlanks : Bool := false
deriving DecidableEq, Repr

/-- One flag. -/
inductive Flag where
  | ignoresCase
  | multiline
  | dotMatchesAll
  | swapsGreed
  | unicode
  | returnEndsLine
  | ignoresBlanks
deriving DecidableEq, Repr

/-- The flag of a letter. -/
def Flag.ofChar? (c : Char) : Option Flag :=
  match c with
  | 'i' => some .ignoresCase
  | 'm' => some .multiline
  | 's' => some .dotMatchesAll
  | 'U' => some .swapsGreed
  | 'u' => some .unicode
  | 'R' => some .returnEndsLine
  | 'x' => some .ignoresBlanks
  | _ => none

namespace Flags

/-- Sets or clears a flag. -/
def set (flags : Flags) (flag : Flag) (value : Bool) : Flags :=
  match flag with
  | .ignoresCase => { flags with ignoresCase := value }
  | .multiline => { flags with multiline := value }
  | .dotMatchesAll => { flags with dotMatchesAll := value }
  | .swapsGreed => { flags with swapsGreed := value }
  | .unicode => { flags with unicode := value }
  | .returnEndsLine => { flags with returnEndsLine := value }
  | .ignoresBlanks => { flags with ignoresBlanks := value }

/-- Skips blanks and comments; `inComment` tells whether the text starts inside a comment. -/
def skipBlanks (inComment : Bool) : List Char → List Char
  | [] => []
  | c :: rest =>
      if inComment then skipBlanks (c != '\n') rest
      else if c = '#' then skipBlanks true rest
      else if Unicode.isWhitespace c then skipBlanks false rest
      else c :: rest

/-- Skips what has no meaning under the flags. -/
def skip (flags : Flags) (chars : List Char) : List Char :=
  if flags.ignoresBlanks then skipBlanks false chars else chars

/-- A set under the flag for case. -/
def fold (flags : Flags) (set : CharSet) : CharSet :=
  if !flags.ignoresCase then set
  else if flags.unicode then .folded set
  else .asciiFolded set

/-- A set, or its complement. Without Unicode a complement holds parts of characters. -/
def negate (flags : Flags) (negated : Bool) (set : CharSet) : Except PatternFault CharSet :=
  if !negated then .ok set
  else if flags.unicode then .ok (.complement set)
  else .error .splitsCharacter

/-- The set that a dot stands for. -/
def dot (flags : Flags) : Except PatternFault CharSet :=
  if !flags.unicode then .error .splitsCharacter
  else if flags.dotMatchesAll then .ok .any
  else if flags.returnEndsLine then .ok (.complement (.ranges [(0xa, 0xa), (0xd, 0xd)]))
  else .ok (.complement (.single '\n'))

/-- The assertion that a circumflex stands for. -/
def circumflex (flags : Flags) : Assertion :=
  if !flags.multiline then .textStart
  else if flags.returnEndsLine then .returnLineStart
  else .lineStart

/-- The assertion that a dollar sign stands for. -/
def dollar (flags : Flags) : Assertion :=
  if !flags.multiline then .textEnd
  else if flags.returnEndsLine then .returnLineEnd
  else .lineEnd

/-- The word characters. -/
def word (flags : Flags) : CharSet :=
  if flags.unicode then .property .word else .asciiWord

def digit (flags : Flags) : CharSet :=
  if flags.unicode then .property .digit else .asciiDigit

def space (flags : Flags) : CharSet :=
  if flags.unicode then .property .whitespace else .asciiSpace

end Flags

/-- The letters of a flag group up to its colon or closing parenthesis: each flag with whether it is
set, whether a colon closes the group, and what follows. -/
def readFlags (negative : Bool) (seen : List Flag) :
    List Char → Except PatternFault (List (Flag × Bool) × Bool × List Char)
  | [] => .error .invalidFlag
  | ':' :: rest => .ok ([], true, rest)
  | ')' :: rest => .ok ([], false, rest)
  | ['-'] => .error .invalidFlag
  | '-' :: c :: rest =>
      if negative || c = ':' || c = ')' then .error .invalidFlag
      else readFlags true seen (c :: rest)
  | c :: rest =>
      match Flag.ofChar? c with
      | none => .error .invalidFlag
      | some flag =>
          if seen.contains flag then .error .invalidFlag
          else (readFlags negative (flag :: seen) rest).map fun (flags, colon, rest) =>
            ((flag, !negative) :: flags, colon, rest)
termination_by structural chars => chars

/-- Applies the flags of a flag group. -/
def Flags.apply (flags : Flags) (changes : List (Flag × Bool)) : Flags :=
  changes.foldl (fun flags change => flags.set change.1 change.2) flags

end EarleyChart.Pattern
