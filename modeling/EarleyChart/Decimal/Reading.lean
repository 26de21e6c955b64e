import EarleyChart.Decimal.Binary

/-!
Contract: numbers as a program's user writes them.

An integer is an optional sign and digits, and must fit 64 bits. Any other number is the double
nearest to what its digits, point and exponent write; a point needs a digit on one side only, and
the words for infinity and for what is no number are read in either case.
-/

namespace EarleyChart.Decimal

/-- Number that decimal digits write. -/
def digitsNumber (digits : List Char) : Nat :=
  digits.foldl (fun number c => 10 * number + (c.toNat - '0'.toNat)) 0

/-- An optional sign, as whether it is a minus, with what follows it. -/
def readSign : List Char → Bool × List Char
  | '-' :: rest => (true, rest)
  | '+' :: rest => (false, rest)
  | chars => (false, chars)

/-- The integer that a text writes, if all of it is one. -/
def readInt? (text : List Char) : Option Int :=
  let (negative, digits) := readSign text
  if digits.isEmpty || !digits.all Char.isDigit then none
  else if negative then some (-digitsNumber digits) else some (digitsNumber digits)

/-- The integer of 64 bits that a text writes, if it writes one. -/
def readInt64? (text : List Char) : Option Int64 :=
  (readInt? text).bind fun n =>
    if -9223372036854775808 ≤ n ∧ n ≤ 9223372036854775807 then some (Int64.ofInt n) else none

/-- The double nearest to `digits · 10 ^ exponent`. Exponents beyond the range of doubles are cut
short, so that no power is computed for nothing. -/
def nearestScientific (negative : Bool) (digits : Nat) (exponent : Int) : Float :=
  if digits = 0 then Binary.withSign negative 0
  else
    let magnitude := exponent + (Nat.toDigits 10 digits).length
    if 400 < magnitude then Binary.nearest negative (Nat.pow 10 400) 1
    else if magnitude < -400 then Binary.withSign negative 0
    else Binary.nearest negative (digits * Nat.pow 10 exponent.toNat)
      (Nat.pow 10 (-exponent).toNat)

/-- The exponent that follows the digits of a number: nothing, or a mark and an integer. -/
def readExponent? : List Char → Option Int
  | [] => some 0
  | c :: rest => if c = 'e' ∨ c = 'E' then readInt? rest else none

/-- The double that an unsigned text of digits, point and exponent writes. -/
def readDigits? (negative : Bool) (text : List Char) : Option Float :=
  let whole := text.takeWhile Char.isDigit
  let afterWhole := text.dropWhile Char.isDigit
  let (fraction, rest) :=
    match afterWhole with
    | '.' :: tail => (tail.takeWhile Char.isDigit, tail.dropWhile Char.isDigit)
    | _ => ([], afterWhole)
  if whole.isEmpty && fraction.isEmpty then none
  else (readExponent? rest).map fun exponent =>
    nearestScientific negative (digitsNumber (whole ++ fraction)) (exponent - fraction.length)

/-- The double that a text writes, if all of it writes one. -/
def readFloat? (text : List Char) : Option Float :=
  let (negative, rest) := readSign text
  let word := String.ofList (rest.map Char.toLower)
  if word = "inf" ∨ word = "infinity" then some (Binary.withSign negative (2047 <<< 52))
  else if word = "nan" then some (Binary.withSign negative (4095 <<< 51))
  else readDigits? negative rest

end EarleyChart.Decimal
