import EarleyChart.Unicode.CaseOrbit
import EarleyChart.Unicode.Property

/-!
Contract: sets of characters in patterns.

A set is built from ranges and properties by complement, union, intersection and closure under
case; `CharSet.contains` decides membership by the same steps.
-/

namespace EarleyChart

/-- A property of characters that a pattern can name. -/
inductive CharProperty where
  | any
  | ascii
  | assigned
  | category (category : Unicode.Category)
  | letter
  | casedLetter
  | mark
  | number
  | punctuation
  | symbol
  | separator
  | other
  | digit
  | whitespace
  | word
  | alphabetic
  | lowercase
  | uppercase
  | identifierStart
  | identifierPart
  | stableIdentifierStart
  | stableIdentifierPart
deriving DecidableEq, Repr

def CharProperty.holds : CharProperty → Char → Bool
  | any, _ => true
  | ascii, c => c.toNat < 128
  | assigned, c => Unicode.Category.of c != .unassigned
  | category kind, c => Unicode.Category.of c == kind
  | letter, c => (Unicode.Category.of c).isLetter
  | casedLetter, c => (Unicode.Category.of c).isCasedLetter
  | mark, c => (Unicode.Category.of c).isMark
  | number, c => (Unicode.Category.of c).isNumber
  | punctuation, c => (Unicode.Category.of c).isPunctuation
  | symbol, c => (Unicode.Category.of c).isSymbol
  | separator, c => (Unicode.Category.of c).isSeparator
  | other, c => (Unicode.Category.of c).isOther
  | digit, c => Unicode.isDecimalDigit c
  | whitespace, c => Unicode.isWhitespace c
  | word, c => Unicode.isWord c
  | alphabetic, c => Unicode.isAlphabetic c
  | lowercase, c => Unicode.isLowercase c
  | uppercase, c => Unicode.isUppercase c
  | identifierStart, c => Unicode.isIdentifierStart c
  | identifierPart, c => Unicode.isIdentifierPart c
  | stableIdentifierStart, c => Unicode.isStableIdentifierStart c
  | stableIdentifierPart, c => Unicode.isStableIdentifierPart c

/-- A set of characters. -/
inductive CharSet where
  | ranges (ranges : Unicode.Ranges)
  | property (property : CharProperty)
  | complement (set : CharSet)
  | union (left right : CharSet)
  | intersection (left right : CharSet)
  /-- The set with all characters that differ in case only. -/
  | folded (set : CharSet)
  /-- The set with all characters that differ in the case of a basic Latin letter only. -/
  | asciiFolded (set : CharSet)
deriving DecidableEq, Repr

namespace CharSet

/-- Whether a character is in a set. -/
def contains : CharSet → Char → Bool
  | .ranges list, c => list.contains c
  | .property quality, c => quality.holds c
  | .complement set, c => !set.contains c
  | .union left right, c => left.contains c || right.contains c
  | .intersection left right, c => left.contains c && right.contains c
  | .folded set, c => (Unicode.CaseOrbit.of c).any fun other => set.contains other
  | .asciiFolded set, c => set.contains c || set.contains c.toLower || set.contains c.toUpper

def empty : CharSet :=
  .ranges []

def single (c : Char) : CharSet :=
  .ranges [(c.toNat, c.toNat)]

def range (first last : Char) : CharSet :=
  .ranges [(first.toNat, last.toNat)]

def any : CharSet :=
  .property .any

/-- The characters of one set that are not in another. -/
def difference (left right : CharSet) : CharSet :=
  .intersection left (.complement right)

/-- The characters that are in exactly one of two sets. -/
def symmetricDifference (left right : CharSet) : CharSet :=
  .union (difference left right) (difference right left)

/-- The digits, blanks and word characters of basic Latin. -/
def asciiDigit : CharSet :=
  .ranges [(0x30, 0x39)]

def asciiSpace : CharSet :=
  .ranges [(0x9, 0xd), (0x20, 0x20)]

def asciiWord : CharSet :=
  .ranges [(0x30, 0x39), (0x41, 0x5a), (0x5f, 0x5f), (0x61, 0x7a)]

/-- The set of basic Latin characters that a bracketed class names. -/
def named? (name : String) : Option CharSet :=
  match name with
  | "alnum" => some (.ranges [(0x30, 0x39), (0x41, 0x5a), (0x61, 0x7a)])
  | "alpha" => some (.ranges [(0x41, 0x5a), (0x61, 0x7a)])
  | "ascii" => some (.ranges [(0x0, 0x7f)])
  | "blank" => some (.ranges [(0x9, 0x9), (0x20, 0x20)])
  | "cntrl" => some (.ranges [(0x0, 0x1f), (0x7f, 0x7f)])
  | "digit" => some asciiDigit
  | "graph" => some (.ranges [(0x21, 0x7e)])
  | "lower" => some (.ranges [(0x61, 0x7a)])
  | "print" => some (.ranges [(0x20, 0x7e)])
  | "punct" => some (.ranges [(0x21, 0x2f), (0x3a, 0x40), (0x5b, 0x60), (0x7b, 0x7e)])
  | "space" => some asciiSpace
  | "upper" => some (.ranges [(0x41, 0x5a)])
  | "word" => some asciiWord
  | "xdigit" => some (.ranges [(0x30, 0x39), (0x41, 0x46), (0x61, 0x66)])
  | _ => none

end CharSet

end EarleyChart
