import EarleyChart.Decimal.Reading
import EarleyChart.Json.Basic
import EarleyChart.Json.Tree

/-!
Contract: the number that a JSON numeral means.

A numeral without fraction and exponent is an integer while it fits 64 bits. Any other is a double:
its leading digits are gathered in an integer of 64 bits until that is full, and the integer is
scaled by a power of ten in double precision. Digits that no longer fit count by their place
only, so the double is not always the nearest one. A numeral too large for a double means nothing.
-/

namespace EarleyChart.Json

/-- The largest integer of 64 bits. -/
def maxWord : Nat :=
  18446744073709551615

/-- The largest exponent that a numeral's digits are read to. -/
def maxExponent : Int :=
  2147483647

/-- Digits gathered so far, standing for `significand · 10 ^ exponent`. -/
structure Gathered where
  significand : Nat
  exponent : Int
deriving DecidableEq, Repr

/-- `n` with a digit appended. -/
def appendDigit (n : Nat) (digit : Char) : Nat :=
  10 * n + (digit.toNat - '0'.toNat)

/-- Gathers the digits of the whole part; the first that does not fit and all after it count by
their place. -/
def gatherWhole (significand : Nat) : List Char → Gathered
  | [] => ⟨significand, 0⟩
  | digit :: rest =>
      if maxWord < appendDigit significand digit then ⟨significand, rest.length + 1⟩
      else gatherWhole (appendDigit significand digit) rest

/-- Gathers the digits of the fraction; the first that does not fit and all after it are dropped. -/
def gatherFraction (gathered : Gathered) : List Char → Gathered
  | [] => gathered
  | digit :: rest =>
      if maxWord < appendDigit gathered.significand digit then gathered
      else gatherFraction ⟨appendDigit gathered.significand digit, gathered.exponent - 1⟩ rest

/-- The power of ten as a double. -/
def powerOfTen (exponent : Nat) : Float :=
  Decimal.nearestScientific false 1 exponent

/-- Scales a double by a power of ten, by `10 ^ 308` at a time where the exponent is beyond the
range of doubles. Nothing is the outcome when the result is too large. -/
def scaleByTen : (steps : Nat) → Float → Int → Option Float
  | 0, x, _ => some x
  | steps + 1, x, exponent =>
      if exponent.natAbs ≤ 308 then
        if 0 ≤ exponent then
          let scaled := x * powerOfTen exponent.natAbs
          if scaled.isInf then none else some scaled
        else some (x / powerOfTen exponent.natAbs)
      else if x == 0 then some x
      else if 0 ≤ exponent then none
      else scaleByTen steps (x / powerOfTen 308) (exponent + 308)

/-- The double of gathered digits. Three steps of `10 ^ -308` make any of them zero. -/
def Gathered.toFloat? (gathered : Gathered) (negative : Bool) : Option Float :=
  (scaleByTen 5 (UInt64.ofNat gathered.significand).toFloat gathered.exponent).map fun x =>
    if negative then -x else x

/-- Brings an exponent back into the range that exponents are held in. -/
def clampExponent (exponent : Int) : Int :=
  max (-maxExponent - 1) (min maxExponent exponent)

/-- The double of a numeral with a fraction or an exponent, or with too many digits. -/
def Numeral.toFloat? (numeral : Numeral) : Option Float :=
  let gathered := gatherFraction (gatherWhole 0 numeral.whole) numeral.fraction
  match numeral.exponent with
  | none => gathered.toFloat? numeral.negative
  | some (negativeExponent, digits) =>
      let exponent : Int := Decimal.digitsNumber digits
      if maxExponent < exponent then
        if gathered.significand ≠ 0 ∧ !negativeExponent then none
        else some (Decimal.Binary.withSign numeral.negative 0)
      else
        let shift := if negativeExponent then -exponent else exponent
        Gathered.toFloat? ⟨gathered.significand, clampExponent (gathered.exponent + shift)⟩
          numeral.negative

/-- The document of a numeral: an integer of 64 bits, or a double. A negative zero is a double. -/
def Numeral.toJson? (numeral : Numeral) : Option Json :=
  let whole := Decimal.digitsNumber numeral.whole
  if numeral.fraction.isEmpty ∧ numeral.exponent.isNone ∧ whole ≤ maxWord then
    if numeral.negative then
      if whole = 0 ∨ 9223372036854775808 < whole then some (.float (-(UInt64.ofNat whole).toFloat))
      else some (.int (-whole))
    else some (.int whole)
  else numeral.toFloat?.map .float

end EarleyChart.Json
