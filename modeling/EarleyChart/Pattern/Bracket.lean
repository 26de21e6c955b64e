import EarleyChart.Pattern.Escape

/-!
Contract: character classes in brackets.

A class is a union of characters, ranges, escapes, named classes and nested classes. Between unions stand
operators for intersection, difference and symmetric difference, which all bind alike and from the
left. A circumflex in front takes the complement of the whole.
-/

namespace EarleyChart.Pattern

/-- An operator between the unions of a class. -/
inductive ClassOperator where
  | intersection
  | difference
  | symmetricDifference
deriving DecidableEq, Repr

def ClassOperator.apply (operator : ClassOperator) (left right : CharSet) : CharSet :=
  match operator with
  | .intersection => .intersection left right
  | .difference => CharSet.difference left right
  | .symmetricDifference => CharSet.symmetricDifference left right

/-- A class that is being read: the operator before the last union with what stands to its left,
and the last union so far. -/
structure OpenClass where
  pending : Option (ClassOperator × CharSet)
  union : CharSet
deriving DecidableEq, Repr

namespace OpenClass

/-- Adds a set to the last union. -/
def add (openClass : OpenClass) (set : CharSet) : OpenClass :=
  { openClass with union := .union openClass.union set }

/-- The set read so far. -/
def close (openClass : OpenClass) (flags : Flags) : CharSet :=
  match openClass.pending with
  | none => openClass.union
  | some (operator, left) => operator.apply (flags.fold left) (flags.fold openClass.union)

/-- Starts a new union after an operator. -/
def operate (openClass : OpenClass) (flags : Flags) (operator : ClassOperator) : OpenClass :=
  ⟨some (operator, openClass.close flags), .empty⟩

end OpenClass

/-- A character that stands for itself in a class. Without Unicode it must be of basic Latin. -/
def classLiteral (flags : Flags) (c : Char) : Except PatternFault Char :=
  if flags.unicode || c.toNat < 128 then .ok c else .error .splitsCharacter

/-- An atom of a class: an escape or a character that stands for itself. -/
def readClassAtom (flags : Flags) : List Char → Except PatternFault (Atom × List Char)
  | [] => .error .unclosedClass
  | '\\' :: rest => readEscape flags rest
  | c :: rest => .ok (.literal c false, rest)

/-- The set of an atom that stands alone in a class. -/
def atomSet (flags : Flags) : Atom → Except PatternFault CharSet
  | .literal c _ => (classLiteral flags c).map CharSet.single
  | .set set => .ok set
  | .assertion _ => .error .invalidClassItem

/-- The set of a range between two atoms, which must be characters in order. -/
def rangeSet (flags : Flags) (first last : Atom) : Except PatternFault CharSet :=
  match first, last with
  | .literal first _, .literal last _ => do
      let first ← classLiteral flags first
      let last ← classLiteral flags last
      if first ≤ last then return CharSet.range first last else throw .invalidRange
  | _, _ => .error .invalidClassItem

/-- Whether a hyphen with this text after it makes a range. -/
def makesRange (flags : Flags) (afterHyphen : List Char) : Bool :=
  match flags.skip afterHyphen with
  | ']' :: _ => false
  | '-' :: _ => false
  | _ => true

/-- An atom or a range of a class. -/
def readClassRange (flags : Flags) (chars : List Char) :
    Except PatternFault (CharSet × List Char) := do
  let (first, rest) ← readClassAtom flags chars
  match flags.skip rest with
  | [] => throw .unclosedClass
  | '-' :: afterHyphen =>
      if makesRange flags afterHyphen then
        let (last, rest) ← readClassAtom flags (flags.skip afterHyphen)
        return (← rangeSet flags first last, rest)
      else return (← atomSet flags first, '-' :: afterHyphen)
  | rest => return (← atomSet flags first, rest)

/-- A named class after its opening bracket, such as `:alpha:]`. -/
def readNamedClass? (flags : Flags) (chars : List Char) : Option (CharSet × List Char) :=
  match chars with
  | ':' :: rest =>
      let negated := rest.head? == some '^'
      let rest := if negated then rest.drop 1 else rest
      let name := rest.takeWhile (· != ':')
      match rest.drop name.length with
      | ':' :: ']' :: rest =>
          (CharSet.named? (String.ofList name)).map fun set =>
            (if negated then .complement (flags.fold set) else flags.fold set, rest)
      | _ => none
  | _ => none

/-- Hyphens at the start of a class stand for themselves. -/
def readLeadingHyphens (flags : Flags) :
    (bound : Nat) → OpenClass → List Char → OpenClass × List Char
  | 0, openClass, chars => (openClass, chars)
  | bound + 1, openClass, chars =>
      match chars with
      | '-' :: rest =>
          readLeadingHyphens flags bound (openClass.add (.single '-')) (flags.skip rest)
      | _ => (openClass, chars)

/-- The start of a class after its opening bracket: whether it is negated, and the hyphens or the
closing bracket that stand for themselves there. -/
def readClassStart (flags : Flags) (chars : List Char) : Bool × OpenClass × List Char :=
  let chars := flags.skip chars
  let negated := chars.head? == some '^'
  let chars := if negated then flags.skip (chars.drop 1) else chars
  match chars with
  | ']' :: rest => (negated, ⟨none, .single ']'⟩, rest)
  | _ => (negated, readLeadingHyphens flags chars.length ⟨none, .empty⟩ chars)

mutual

/-- A class after its opening bracket, with the depth to which classes nest in it. -/
def readClass (flags : Flags) :
    (bound : Nat) → List Char → Except PatternFault (CharSet × Nat × List Char)
  | 0, _ => .error .unclosedClass
  | bound + 1, chars => do
      let (negated, openClass, rest) := readClassStart flags chars
      let (set, depth, rest) ← readClassRest flags bound openClass rest
      return (← flags.negate negated (flags.fold set), depth + 1, rest)

/-- The rest of a class up to its closing bracket. -/
def readClassRest (flags : Flags) :
    (bound : Nat) → OpenClass → List Char → Except PatternFault (CharSet × Nat × List Char)
  | 0, _, _ => .error .unclosedClass
  | bound + 1, openClass, chars =>
      match flags.skip chars with
      | [] => .error .unclosedClass
      | ']' :: rest => .ok (openClass.close flags, 0, rest)
      | '&' :: '&' :: rest => readClassRest flags bound (openClass.operate flags .intersection) rest
      | '-' :: '-' :: rest => readClassRest flags bound (openClass.operate flags .difference) rest
      | '~' :: '~' :: rest =>
          readClassRest flags bound (openClass.operate flags .symmetricDifference) rest
      | '[' :: rest =>
          match readNamedClass? flags rest with
          | some (set, rest) => readClassRest flags bound (openClass.add set) rest
          | none => do
              let (set, depth, rest) ← readClass flags bound rest
              let (whole, otherDepth, rest) ← readClassRest flags bound (openClass.add set) rest
              return (whole, max depth otherDepth, rest)
      | rest => do
          let (set, rest) ← readClassRange flags rest
          readClassRest flags bound (openClass.add set) rest

end

end EarleyChart.Pattern
