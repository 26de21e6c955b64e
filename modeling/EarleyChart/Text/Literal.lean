import EarleyChart.Text.Utf16

/-!
Contract: the text that a string literal spells.

A literal may stand between double quote marks. A backslash starts an escape: five letters name
control characters, `u` with four hexadecimal digits names a UTF-16 unit, and any other character
stands for itself. Two unit escapes that form a surrogate pair are one character; a surrogate
without its partner becomes the replacement character.
-/

namespace EarleyChart.Literal

/-- Value of a hexadecimal digit of either case. -/
def hexDigit? (c : Char) : Option Nat :=
  if '0' ≤ c ∧ c ≤ '9' then some (c.toNat - '0'.toNat)
  else if 'a' ≤ c ∧ c ≤ 'f' then some (c.toNat - 'a'.toNat + 10)
  else if 'A' ≤ c ∧ c ≤ 'F' then some (c.toNat - 'A'.toNat + 10)
  else none

/-- The number that four hexadecimal digits write. -/
def hexUnit? (a b c d : Char) : Option Nat := do
  let first ← hexDigit? a
  let second ← hexDigit? b
  let third ← hexDigit? c
  let fourth ← hexDigit? d
  return first * 0x1000 + second * 0x100 + third * 0x10 + fourth

/-- The low surrogate that four hexadecimal digits write. -/
def lowUnit? (a b c d : Char) : Option Nat :=
  (hexUnit? a b c d).filter Utf16.isLow

/-- What a backslash and `c` write, for every `c` other than the mark of a unit escape. -/
def simpleEscape (c : Char) : Char :=
  match c with
  | 'n' => '\n'
  | 't' => '\t'
  | 'r' => '\r'
  | 'b' => '\x08'
  | 'f' => '\x0c'
  | c => c

/-- Resolves the escapes of a text. A unit escape without four digits stays as it is written, and
so does a backslash at the end. A high surrogate takes the low one of the next escape with it. -/
def unescape : List Char → List Char
  | [] => []
  | '\\' :: [] => ['\\']
  | '\\' :: 'u' :: a :: b :: c :: d :: rest =>
      match hexUnit? a b c d with
      | none => '\\' :: 'u' :: unescape (a :: b :: c :: d :: rest)
      | some unit =>
          match rest with
          | '\\' :: 'u' :: e :: f :: g :: h :: beyond =>
              match (if Utf16.isHigh unit then lowUnit? e f g h else none) with
              | some low => Utf16.pair unit low :: unescape beyond
              | none =>
                  Utf16.single unit :: unescape ('\\' :: 'u' :: e :: f :: g :: h :: beyond)
          | other => Utf16.single unit :: unescape other
  | '\\' :: 'u' :: rest => '\\' :: 'u' :: unescape rest
  | '\\' :: c :: rest => simpleEscape c :: unescape rest
  | c :: rest => c :: unescape rest
termination_by structural chars => chars

/-- A text without its first and last double quote mark, if it has both. -/
def strip (chars : List Char) : List Char :=
  match chars with
  | '"' :: rest => if rest.getLast? = some '"' then rest.dropLast else chars
  | _ => chars

/-- The text that a literal spells. -/
def unquote (s : String) : String :=
  String.ofList (unescape (strip s.toList))

end EarleyChart.Literal
