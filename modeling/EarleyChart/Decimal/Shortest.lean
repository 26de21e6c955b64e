import EarleyChart.Decimal.Binary

/-!
Contract: the fewest decimal digits that read back as a given double.

The reals that round to `mantissa · 2 ^ exponent` form an interval; its ends belong to it when the
mantissa is even. On decimal grids that get finer by a digit each, the value's two neighbours are
tried until one lies in the interval. Of two that do, the nearer is taken, and a tie goes as the
writer asks.
-/

namespace EarleyChart.Decimal

/-- Where a value half way between two decimals goes. -/
inductive Tie where
  | up
  | even
deriving DecidableEq, Repr

/-- The number `digits · 10 ^ exponent`. -/
structure Scientific where
  digits : Nat
  exponent : Int
deriving DecidableEq, Repr

/-- The interval of a double in units of a common fraction: the value is
`value / unit`, and the reals that round to it lie between `low / unit` and `high / unit`. -/
structure Interval where
  low : Nat
  value : Nat
  high : Nat
  unit : Nat
  closed : Bool
deriving Repr

/-- The interval of `mantissa · 2 ^ exponent`. Below a power of two the doubles lie closer. -/
def Interval.ofBinary (mantissa : Nat) (exponent : Int) : Interval :=
  let below := if mantissa = Binary.leadingBit ∧ Binary.minExponent < exponent then 1 else 2
  let shift := (exponent - 2).toNat
  { low := (4 * mantissa - below) <<< shift
    value := (4 * mantissa) <<< shift
    high := (4 * mantissa + 2) <<< shift
    unit := 1 <<< (2 - exponent).toNat
    closed := mantissa % 2 = 0 }

/-- The interval measured in units of `10 ^ place`. -/
def Interval.atPlace (interval : Interval) (place : Int) : Interval :=
  let factor := Nat.pow 10 (-place).toNat
  { interval with
    low := interval.low * factor
    value := interval.value * factor
    high := interval.high * factor
    unit := interval.unit * Nat.pow 10 place.toNat }

/-- Whether a number of units lies in the interval. -/
def Interval.holds (interval : Interval) (count : Nat) : Bool :=
  let scaled := count * interval.unit
  if interval.closed then interval.low ≤ scaled && scaled ≤ interval.high
  else interval.low < scaled && scaled < interval.high

/-- Which of two neighbouring counts of units is nearer to the value. -/
def Interval.nearer (interval : Interval) (tie : Tie) (count : Nat) : Nat :=
  let below := interval.value - count * interval.unit
  let above := (count + 1) * interval.unit - interval.value
  if below < above then count
  else if above < below then count + 1
  else match tie with
    | .up => count + 1
    | .even => if count % 2 = 0 then count else count + 1

/-- The neighbour of the value on the grid of whole units that reads back, if one does. -/
def Interval.pick? (interval : Interval) (tie : Tie) : Option Nat :=
  let count := interval.value / interval.unit
  match interval.holds count, interval.holds (count + 1) with
  | true, true => some (interval.nearer tie count)
  | true, false => some count
  | false, true => some (count + 1)
  | false, false => none

/-- Tries the grids of `10 ^ place`, `10 ^ (place - 1)` and so on. -/
def Interval.search (interval : Interval) (tie : Tie) : (grids : Nat) → (place : Int) → Scientific
  | 0, place => ⟨(interval.atPlace place).value / (interval.atPlace place).unit, place⟩
  | grids + 1, place =>
      match (interval.atPlace place).pick? tie with
      | some count => ⟨count, place⟩
      | none => interval.search tie grids (place - 1)

/-- Exponent of the leading decimal digit of the value. -/
def Interval.leading (interval : Interval) : Int :=
  let binary : Int := (interval.value.log2 : Int) - interval.unit.log2
  let guess := (binary * 30103).fdiv 100000
  let reaches (place : Int) : Bool :=
    (interval.atPlace place).unit ≤ (interval.atPlace place).value
  if reaches (guess + 1) then guess + 1
  else if reaches guess then guess
  else guess - 1

/-- Moves zeros at the end of the digits into the exponent. -/
def Scientific.normalize (s : Scientific) : Scientific :=
  let zeros := ((Nat.toDigits 10 s.digits).reverse.takeWhile (· == '0')).length
  if s.digits = 0 then ⟨0, 0⟩ else ⟨s.digits / Nat.pow 10 zeros, s.exponent + zeros⟩

/-- The fewest digits that read back as `mantissa · 2 ^ exponent`. -/
def shortest (tie : Tie) (mantissa : Nat) (exponent : Int) : Scientific :=
  if mantissa = 0 then ⟨0, 0⟩
  else
    let interval := Interval.ofBinary mantissa exponent
    (interval.search tie 17 interval.leading).normalize

end EarleyChart.Decimal
