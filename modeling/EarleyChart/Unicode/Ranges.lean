/-!
Contract: sets of code points as lists of ranges, and their written form.

A table of ranges is a text of words in hexadecimal digits: a single code point, or the first and the
last one with a hyphen between them.
-/

namespace EarleyChart.Unicode

/-- First and last code points of ranges. -/
abbrev Ranges := List (Nat × Nat)

namespace Ranges

/-- Number that hexadecimal digits write. -/
def hexNumber (digits : List Char) : Nat :=
  digits.foldl (fun number c =>
    16 * number + (if c.isDigit then c.toNat - '0'.toNat else c.toNat - 'a'.toNat + 10)) 0

/-- The words of a text, which stand with one blank between them. -/
def words : List Char → List (List Char)
  | [] => [[]]
  | c :: rest =>
      match c == ' ', words rest with
      | true, others => [] :: others
      | false, word :: others => (c :: word) :: others
      | false, [] => [[c]]

/-- The range that a word writes. -/
def ofWord (word : List Char) : Nat × Nat :=
  let first := word.takeWhile (· != '-')
  let last := (word.dropWhile (· != '-')).drop 1
  (hexNumber first, if last.isEmpty then hexNumber first else hexNumber last)

/-- The ranges that a text writes. -/
def ofText (text : String) : Ranges :=
  (words text.toList).map ofWord

/-- Whether a character lies in one of the ranges. -/
def contains (ranges : Ranges) (c : Char) : Bool :=
  ranges.any fun range => range.1 ≤ c.toNat && c.toNat ≤ range.2

end Ranges

end EarleyChart.Unicode
