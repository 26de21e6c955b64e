/-!
Contract: the reasons why a text is no pattern, with their wording.
-/

namespace EarleyChart

/-- Why a text is no pattern. -/
inductive PatternFault where
  | unclosedGroup
  | unopenedGroup
  | invalidGroupName
  | repeatedGroupName (name : String)
  | lookAround
  | backreference
  | invalidFlag
  | nothingToRepeat
  | unclosedCount
  | invalidCount
  | unclosedClass
  | invalidClassItem
  | invalidRange
  | unfinishedEscape
  | unknownEscape (c : Char)
  | invalidCode
  | unknownProperty
  | unknownBoundary
  | splitsCharacter
  | nestedTooDeeply
  | tooLarge
deriving DecidableEq, Repr

def PatternFault.message : PatternFault → String
  | unclosedGroup => "unclosed group"
  | unopenedGroup => "unopened group"
  | invalidGroupName => "invalid capture group name"
  | repeatedGroupName name => s!"duplicate capture group name {name}"
  | lookAround => "look-around is not supported"
  | backreference => "backreferences are not supported"
  | invalidFlag => "invalid flags"
  | nothingToRepeat => "repetition operator missing expression"
  | unclosedCount => "unclosed counted repetition"
  | invalidCount => "invalid repetition count"
  | unclosedClass => "unclosed character class"
  | invalidClassItem => "invalid item in a character class"
  | invalidRange => "invalid character class range"
  | unfinishedEscape => "incomplete escape sequence"
  | unknownEscape c => s!"unrecognized escape sequence of {c}"
  | invalidCode => "invalid hexadecimal code"
  | unknownProperty => "character property not found"
  | unknownBoundary => "unrecognized word boundary"
  | splitsCharacter => "the pattern can match a part of a character"
  | nestedTooDeeply => "the pattern is nested too deeply"
  | tooLarge => "the pattern is too large"

end EarleyChart
