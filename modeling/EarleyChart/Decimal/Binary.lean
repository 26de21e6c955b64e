/-!
Contract: double-precision numbers as exact binary fractions.

A finite double is a sign and `mantissa · 2 ^ exponent`. `Binary.ofFloat` reads the three parts off
the bits; `Binary.nearest` goes the other way, from an exact quotient of naturals to the double
closest to it, a half going to the even mantissa and too large a value to infinity.
-/

namespace EarleyChart.Decimal

/-- What a double denotes. -/
inductive Binary where
  | notANumber
  | infinite (negative : Bool)
  | finite (negative : Bool) (mantissa : Nat) (exponent : Int)
deriving DecidableEq, Repr

namespace Binary

/-- Least exponent of a double. -/
def minExponent : Int :=
  -1074

/-- Bits of a mantissa after its leading one. -/
def fractionBits : Nat :=
  52

/-- Leading one of a mantissa. -/
def leadingBit : Nat :=
  1 <<< fractionBits

/-- Sign of a double among its bits. -/
def signBit : Nat :=
  1 <<< 63

/-- Reads sign, mantissa and exponent off the bits of a double. -/
def ofFloat (x : Float) : Binary :=
  let bits := x.toBits.toNat
  let negative := signBit ≤ bits
  let biased : Nat := (bits >>> fractionBits) % 2048
  let fraction := bits % leadingBit
  if biased = 2047 then
    if fraction = 0 then .infinite negative else .notANumber
  else if biased = 0 then .finite negative fraction minExponent
  else .finite negative (leadingBit + fraction) (minExponent + (biased : Int) - 1)

/-- The double with the given sign whose bits below the sign are `magnitude`. -/
def withSign (negative : Bool) (magnitude : Nat) : Float :=
  Float.ofBits (UInt64.ofNat (if negative then signBit + magnitude else magnitude))

/-- The natural closest to `numerator / denominator`, a half going to the even one. -/
def roundHalfEven (numerator denominator : Nat) : Nat :=
  let quotient := numerator / denominator
  let twice := 2 * (numerator % denominator)
  if twice < denominator ∨ (twice = denominator ∧ quotient % 2 = 0) then quotient
  else quotient + 1

/-- `numerator / denominator` in units of `2 ^ exponent`, rounded. -/
def roundAt (numerator denominator : Nat) (exponent : Int) : Nat :=
  roundHalfEven (numerator <<< (-exponent).toNat) (denominator <<< exponent.toNat)

/-- Exponent of the doubles around `numerator / denominator`, for a positive quotient. -/
def scale (numerator denominator : Nat) : Int :=
  let guess : Int := (numerator.log2 : Int) - denominator.log2 - fractionBits
  let floorAtGuess :=
    (numerator <<< (-guess).toNat) / (denominator <<< guess.toNat)
  max minExponent (if floorAtGuess < leadingBit then guess - 1 else guess)

/-- The double closest to `numerator / denominator`. -/
def nearest (negative : Bool) (numerator denominator : Nat) : Float :=
  if numerator = 0 then withSign negative 0
  else
    let exponent := scale numerator denominator
    let mantissa := roundAt numerator denominator exponent
    -- A mantissa that rounds up to the next power of two carries into the exponent by itself.
    let magnitude := ((exponent - minExponent).toNat <<< fractionBits) + mantissa
    withSign negative (min magnitude (2047 <<< fractionBits))

end Binary

end EarleyChart.Decimal
