import EarleyChart.Text.Literal

/-!
Contract: JSON text as a tree of what is written.

The tree keeps what a later reader may refuse: a number as its digits, so that its range is judged
only where it is used, and a string whose escapes leave a surrogate without its partner as a
string without a text. `Tree.read?` accepts exactly one value with blanks around it.
-/

namespace EarleyChart.Json

/-- A number as its parts are written; without a point the fraction is empty. -/
structure Numeral where
  negative : Bool
  whole : List Char
  fraction : List Char
  /-- Whether the exponent is negative, and its digits. -/
  exponent : Option (Bool × List Char)
deriving DecidableEq, Repr

/-- A JSON value as it is written. A string or key without a text is one with a lone surrogate. -/
inductive Tree where
  | null
  | bool (b : Bool)
  | number (numeral : Numeral)
  | string (s : Option String)
  | array (items : List Tree)
  | object (members : List (Option String × Tree))
deriving Inhabited

namespace Tree

def isBlank (c : Char) : Bool :=
  c == ' ' || c == '\n' || c == '\t' || c == '\r'

def skipBlanks (chars : List Char) : List Char :=
  chars.dropWhile isBlank

/-- A part of a string: a character, or a UTF-16 unit given by its code. -/
inductive Piece where
  | character (c : Char)
  | unit (code : Nat)
deriving DecidableEq, Repr

/-- The character that a backslash and `c` write in a JSON string. -/
def escaped? (c : Char) : Option Char :=
  match c with
  | '"' => some '"'
  | '\\' => some '\\'
  | '/' => some '/'
  | 'b' => some '\x08'
  | 'f' => some '\x0c'
  | 'n' => some '\n'
  | 'r' => some '\r'
  | 't' => some '\t'
  | _ => none

/-- The pieces of a string up to its closing quote mark, with what follows it. -/
def readPieces? : List Char → Option (List Piece × List Char)
  | [] => none
  | '"' :: rest => some ([], rest)
  | '\\' :: 'u' :: a :: b :: c :: d :: rest => do
      let unit ← Literal.hexUnit? a b c d
      let (pieces, rest) ← readPieces? rest
      return (.unit unit :: pieces, rest)
  | '\\' :: c :: rest => do
      let character ← escaped? c
      let (pieces, rest) ← readPieces? rest
      return (.character character :: pieces, rest)
  | c :: rest => do
      guard (0x20 ≤ c.toNat)
      let (pieces, rest) ← readPieces? rest
      return (.character c :: pieces, rest)
termination_by structural chars => chars

/-- The text of a string's pieces, if every surrogate has its partner. -/
def joinPieces? : List Piece → Option (List Char)
  | [] => some []
  | .character c :: rest => (joinPieces? rest).map (c :: ·)
  | .unit high :: .unit low :: rest =>
      if Utf16.isHigh high && Utf16.isLow low then
        (joinPieces? rest).map (Utf16.pair high low :: ·)
      else if Utf16.isHigh high || Utf16.isLow high then none
      else (joinPieces? (.unit low :: rest)).map (Char.ofNat high :: ·)
  | .unit unit :: rest =>
      if Utf16.isHigh unit || Utf16.isLow unit then none
      else (joinPieces? rest).map (Char.ofNat unit :: ·)
termination_by structural pieces => pieces

/-- The text of a string after its opening quote mark, with what follows the closing one. -/
def readString? (chars : List Char) : Option (Option String × List Char) :=
  (readPieces? chars).map fun (pieces, rest) => ((joinPieces? pieces).map String.ofList, rest)

/-- Leading digits and what follows them; at least one digit is needed. -/
def readDigits? (chars : List Char) : Option (List Char × List Char) :=
  let digits := chars.takeWhile Char.isDigit
  if digits.isEmpty then none else some (digits, chars.dropWhile Char.isDigit)

/-- The whole part of a number: a zero, or digits that do not start with one. -/
def readWhole? : List Char → Option (List Char × List Char)
  | '0' :: rest => if (rest.head?.map Char.isDigit).getD false then none else some (['0'], rest)
  | chars => readDigits? chars

def readFraction? : List Char → Option (List Char × List Char)
  | '.' :: rest => readDigits? rest
  | chars => some ([], chars)

/-- An optional sign, as whether it is a minus, with what follows it. -/
def readExponentSign : List Char → Bool × List Char
  | '-' :: rest => (true, rest)
  | '+' :: rest => (false, rest)
  | chars => (false, chars)

def readExponent? (chars : List Char) : Option (Option (Bool × List Char) × List Char) :=
  match chars with
  | c :: rest =>
      if c = 'e' ∨ c = 'E' then
        let (negative, rest) := readExponentSign rest
        (readDigits? rest).map fun (digits, rest) => (some (negative, digits), rest)
      else some (none, chars)
  | [] => some (none, chars)

def readMinus : List Char → Bool × List Char
  | '-' :: rest => (true, rest)
  | chars => (false, chars)

def readNumeral? (chars : List Char) : Option (Numeral × List Char) := do
  let (negative, rest) := readMinus chars
  let (whole, rest) ← readWhole? rest
  let (fraction, rest) ← readFraction? rest
  let (exponent, rest) ← readExponent? rest
  return ({ negative, whole, fraction, exponent }, rest)

/-- The key of a member and the colon after it, with what follows. -/
def readKey? (chars : List Char) : Option (Option String × List Char) :=
  match skipBlanks chars with
  | '"' :: rest => do
      let (key, rest) ← readString? rest
      match skipBlanks rest with
      | ':' :: rest => return (key, rest)
      | _ => none
  | _ => none

mutual

/-- One value at the start of a text, with what follows it. The bound counts nested calls. -/
def readValue? : (bound : Nat) → List Char → Option (Tree × List Char)
  | 0, _ => none
  | bound + 1, chars =>
      match skipBlanks chars with
      | 'n' :: 'u' :: 'l' :: 'l' :: rest => some (.null, rest)
      | 't' :: 'r' :: 'u' :: 'e' :: rest => some (.bool true, rest)
      | 'f' :: 'a' :: 'l' :: 's' :: 'e' :: rest => some (.bool false, rest)
      | '"' :: rest => (readString? rest).map fun (s, rest) => (.string s, rest)
      | '[' :: rest =>
          match skipBlanks rest with
          | ']' :: rest => some (.array [], rest)
          | rest => (readItems? bound rest).map fun (items, rest) => (.array items, rest)
      | '\x7b' :: rest =>
          match skipBlanks rest with
          | '\x7d' :: rest => some (.object [], rest)
          | rest => (readMembers? bound rest).map fun (members, rest) => (.object members, rest)
      | chars => (readNumeral? chars).map fun (numeral, rest) => (.number numeral, rest)

/-- One or more items up to the closing bracket. -/
def readItems? : (bound : Nat) → List Char → Option (List Tree × List Char)
  | 0, _ => none
  | bound + 1, chars => do
      let (item, rest) ← readValue? bound chars
      match skipBlanks rest with
      | ']' :: rest => return ([item], rest)
      | ',' :: rest =>
          let (items, rest) ← readItems? bound rest
          return (item :: items, rest)
      | _ => none

/-- One or more members up to the closing brace. -/
def readMembers? : (bound : Nat) → List Char → Option (List (Option String × Tree) × List Char)
  | 0, _ => none
  | bound + 1, chars => do
      let (key, rest) ← readKey? chars
      let (value, rest) ← readValue? bound rest
      match skipBlanks rest with
      | '\x7d' :: rest => return ([(key, value)], rest)
      | ',' :: rest =>
          let (members, rest) ← readMembers? bound rest
          return ((key, value) :: members, rest)
      | _ => none

end

/-- The one value that a text writes. Every second nested call takes a character off the text, so
twice its length bounds them. -/
def read? (text : String) : Option Tree :=
  match readValue? (2 * text.toList.length + 2) text.toList with
  | some (tree, rest) => if (skipBlanks rest).isEmpty then some tree else none
  | none => none

end Tree

end EarleyChart.Json
