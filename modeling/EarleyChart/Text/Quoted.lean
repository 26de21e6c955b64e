import EarleyChart.Unicode.Property

/-!
Contract: the quoted form of texts and characters in messages and displayed values.

A quoted text stands between quote marks. Inside, the quote mark, the backslash and four control
characters have a two-character escape, every other character that cannot be shown is written by
its code in braces, and the rest stands as itself.
-/

namespace EarleyChart.Quoted

/-- The digits of a code point in braces, as in the escape of an unprintable character. -/
def escapeCode (c : Char) : List Char :=
  ['\\', 'u', '\x7b'] ++ Nat.toDigits 16 c.toNat ++ ['\x7d']

/-- What stands for `c` between quote marks of the given kind. -/
def escape (quote c : Char) : List Char :=
  if c = '\x00' then ['\\', '0']
  else if c = '\t' then ['\\', 't']
  else if c = '\r' then ['\\', 'r']
  else if c = '\n' then ['\\', 'n']
  else if c = '\\' then ['\\', '\\']
  else if c = quote then ['\\', quote]
  else if Unicode.isPrintable c then [c]
  else escapeCode c

/-- A text between double quote marks. -/
def text (s : String) : String :=
  String.ofList ('"' :: s.toList.flatMap (escape '"') ++ ['"'])

/-- A character between single quote marks. -/
def character (c : Char) : String :=
  String.ofList ('\'' :: escape '\'' c ++ ['\''])

end EarleyChart.Quoted
