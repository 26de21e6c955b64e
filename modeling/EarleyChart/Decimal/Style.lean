import EarleyChart.Decimal.Shortest

/-!
Contract: the written form of doubles.

Every writer uses the fewest digits that read back. A `Style` holds the decisions that are left:
which numbers are written without an exponent, whether a whole number keeps a point, how an
exponent is marked, and the words for the values that are no numbers.
-/

namespace EarleyChart.Decimal

/-- How a writer lays out the digits of a double. -/
structure Style where
  tie : Tie
  /-- Whether a number whose leading digit has this exponent is written without one. -/
  positional : Int → Bool
  /-- Whether a whole number ends in a point and a zero. -/
  keepsPoint : Bool
  /-- Whether a positive exponent has a sign. -/
  signsExponent : Bool
  /-- The word for an infinite value, by its sign. -/
  infinite : (negative : Bool) → String
  notANumber : String

/-- Digits with a point after the place of `10 ^ 0`, for a leading digit at `10 ^ leading`. -/
def positionalDigits (keepsPoint : Bool) (digits : List Char) (leading : Int) : List Char :=
  if leading < 0 then
    ['0', '.'] ++ List.replicate (-leading - 1).toNat '0' ++ digits
  else
    let whole := leading.toNat + 1
    if digits.length ≤ whole then
      digits ++ List.replicate (whole - digits.length) '0'
        ++ (if keepsPoint then ['.', '0'] else [])
    else digits.take whole ++ ['.'] ++ digits.drop whole

/-- One digit, the others after a point, and the exponent of the first. -/
def exponentialDigits (signsExponent : Bool) (digits : List Char) (leading : Int) : List Char :=
  let fraction := digits.drop 1
  let sign := if leading < 0 then ['-'] else if signsExponent then ['+'] else []
  digits.take 1 ++ (if fraction.isEmpty then [] else '.' :: fraction)
    ++ ['e'] ++ sign ++ Nat.toDigits 10 leading.natAbs

/-- Lays out a non-negative decimal. -/
def Style.layout (style : Style) (number : Scientific) : List Char :=
  let digits := Nat.toDigits 10 number.digits
  let leading := number.exponent + digits.length - 1
  if number.digits = 0 || style.positional leading then
    positionalDigits style.keepsPoint digits leading
  else exponentialDigits style.signsExponent digits leading

/-- The written form of a double. -/
def Style.write (style : Style) (x : Float) : String :=
  match Binary.ofFloat x with
  | .notANumber => style.notANumber
  | .infinite negative => style.infinite negative
  | .finite negative mantissa exponent =>
      let digits := style.layout (shortest style.tie mantissa exponent)
      String.ofList (if negative then '-' :: digits else digits)

/-- Values are displayed without an exponent, and whole numbers without a point. -/
def Style.display : Style where
  tie := .up
  positional _ := true
  keepsPoint := false
  signsExponent := false
  infinite negative := if negative then "-inf" else "inf"
  notANumber := "NaN"

/-- An inspected number shows that it is a double: it has a point, or an exponent when it is below
`10 ^ -4` or not below `10 ^ 16`. -/
def Style.inspect : Style where
  tie := .up
  positional leading := -4 ≤ leading && leading < 16
  keepsPoint := true
  signsExponent := false
  infinite negative := if negative then "-inf" else "inf"
  notANumber := "NaN"

/-- JSON text has a point, or a signed exponent when the number is below `10 ^ -5` or not below
`10 ^ 16`; it has no word for what is no number. -/
def Style.json : Style where
  tie := .even
  positional leading := -5 ≤ leading && leading < 16
  keepsPoint := true
  signsExponent := true
  infinite _ := "null"
  notANumber := "null"

end EarleyChart.Decimal
