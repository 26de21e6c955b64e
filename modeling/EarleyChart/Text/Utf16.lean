/-!
Contract: UTF-16 code units and their lossy decoding.

A character of the basic plane is one unit, any other is a high surrogate followed by a low one.
`decode` reads units back: a high surrogate with a low one right after it is one character, a
surrogate without its partner becomes the replacement character.
-/

namespace EarleyChart.Utf16

/-- The character that stands for a surrogate without its partner. -/
def replacement : Char :=
  '\uFFFD'

def isHigh (unit : Nat) : Bool :=
  0xD800 ≤ unit && unit < 0xDC00

def isLow (unit : Nat) : Bool :=
  0xDC00 ≤ unit && unit < 0xE000

/-- The units of one character. -/
def units (c : Char) : List Nat :=
  if c.toNat < 0x10000 then [c.toNat]
  else [0xD800 + (c.toNat - 0x10000) / 0x400, 0xDC00 + (c.toNat - 0x10000) % 0x400]

/-- The character that a high and a low surrogate write together. -/
def pair (high low : Nat) : Char :=
  Char.ofNat (0x10000 + (high - 0xD800) * 0x400 + (low - 0xDC00))

/-- The character that a unit writes on its own. -/
def single (unit : Nat) : Char :=
  if isHigh unit || isLow unit then replacement else Char.ofNat unit

/-- Lossy decoding: adjacent high and low surrogates combine, any other surrogate is replaced. -/
def decode : List Nat → List Char
  | [] => []
  | [unit] => [single unit]
  | first :: second :: rest =>
      if isHigh first && isLow second then pair first second :: decode rest
      else single first :: decode (second :: rest)

end EarleyChart.Utf16
