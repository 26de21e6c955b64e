import EarleyChart.Pattern.Bracket

/-!
Contract: patterns from text.

A pattern is alternatives with bars between them; an alternative is a sequence of items, each with
repetition operators after it; an item is a group, a class, an escape, a dot, an anchor or a
character. Flags that are set in a group hold to its end. `Pattern.read` refuses what it cannot
give a meaning to, and patterns that nest too deeply or grow too large when repetitions are
written out. Of the properties of characters it knows the general categories, the scripts and those of
`CharProperty`; a pattern that names another one is refused.
-/

namespace EarleyChart.Pattern

/-- How deeply the parts of a pattern may nest. -/
def maxDepth : Nat :=
  250

/-- How large a pattern may be with its repetitions written out. -/
def maxSize : Nat :=
  327680

/-- A pattern that has been read, with its depth and its size. -/
structure Part where
  pattern : Pattern
  depth : Nat
  size : Nat
deriving DecidableEq, Repr

namespace Part

/-- The size of parts that stand together. -/
def totalSize (parts : List Part) : Nat :=
  parts.foldl (fun size part => size + part.size) 0

/-- The parts of a sequence. A single part is the sequence itself. -/
def sequence (parts : List Part) : Part :=
  match parts with
  | [] => ⟨.empty, 0, 1⟩
  | [part] => part
  | part :: others =>
      { pattern := .concat part.pattern (others.foldr (fun other whole =>
          if whole = .empty then other.pattern else .concat other.pattern whole) .empty)
        depth := 1 + (parts.map Part.depth).foldl max 0
        size := totalSize parts }

/-- Alternatives in the order of their preference. A single one is the whole. -/
def alternatives (parts : List Part) : Part :=
  match parts.reverse with
  | [] => ⟨.empty, 0, 1⟩
  | [part] => part
  | last :: others =>
      { pattern := others.foldl (fun whole other => .alternate other.pattern whole) last.pattern
        depth := 1 + (parts.map Part.depth).foldl max 0
        size := totalSize parts }

/-- A part repeated between two counts. What is repeated is written out, with a choice before every
match that may be left out and one behind the last match of a repetition without an end. -/
def repeated (part : Part) (low : Nat) (high : Option Nat) (greedy : Bool) : Part where
  pattern := part.pattern.repeated low high greedy
  depth := part.depth + 1
  size :=
    match high with
    | some high => low * part.size + (high - low) * (part.size + 1) + 1
    | none => max 1 low * part.size + 1

end Part

/-- Roughly how many states it takes to tell the characters of a set by their bytes. -/
def setSize : CharSet → Nat
  | .ranges ranges => if ranges.all (·.2 < 128) then 1 else 2 * ranges.length + 1
  | .property .any => 12
  | .property .ascii => 1
  | .property .digit => 160
  | .property .whitespace => 24
  | .property .word => 1800
  | .property .letter => 1600
  | .property _ => 400
  | .complement set => setSize set + 12
  | .union left right => setSize left + setSize right
  | .intersection left right => setSize left + setSize right
  | .folded set => 2 * setSize set
  | .asciiFolded set => setSize set

/-- The part of a character set. -/
def setPart (set : CharSet) (depth : Nat) : Part :=
  ⟨.one set, depth, setSize set⟩

/-- The part of an atom. A byte above basic Latin is no character without Unicode. -/
def atomPart (flags : Flags) : Atom → Except PatternFault Part
  | .literal c byte =>
      if byte && 0x7f < c.toNat && !flags.unicode then .error .splitsCharacter
      else .ok (setPart (flags.fold (.single c)) 0)
  | .set set => .ok (setPart set 0)
  | .assertion assertion => .ok ⟨.assert assertion, 0, 1⟩

/-- What is left of a pattern, with the flags in force and the group names in use. -/
structure Remaining where
  chars : List Char
  flags : Flags
  names : List String
deriving DecidableEq, Repr

/-- A decimal number with blanks around it. -/
def readCount (flags : Flags) (chars : List Char) : Except PatternFault (Nat × List Char) :=
  let chars := chars.dropWhile Unicode.isWhitespace
  let digits := (if flags.ignoresBlanks then chars.filter (!Unicode.isWhitespace ·) else chars)
    |>.takeWhile Char.isDigit
  let rest := chars.dropWhile fun c =>
    c.isDigit || (flags.ignoresBlanks && Unicode.isWhitespace c)
  let number := digits.foldl (fun number c => 10 * number + (c.toNat - '0'.toNat)) 0
  if digits.isEmpty || 4294967295 < number then .error .invalidCount
  else .ok (number, rest.dropWhile Unicode.isWhitespace)

/-- The counts of a repetition after its opening brace. -/
def readCounts (flags : Flags) (chars : List Char) :
    Except PatternFault (Nat × Option Nat × List Char) := do
  let (low, rest) ← readCount flags (flags.skip chars)
  match rest with
  | '\x7d' :: rest => return (low, some low, rest)
  | ',' :: rest =>
      match flags.skip rest with
      | '\x7d' :: rest => return (low, none, rest)
      | rest =>
          let (high, rest) ← readCount flags rest
          match rest with
          | '\x7d' :: rest =>
              if low ≤ high then return (low, some high, rest) else throw .invalidCount
          | _ => throw .unclosedCount
  | _ => throw .unclosedCount

/-- The counts of a repetition operator, if there is one, with what follows. -/
def readOperator (flags : Flags) (chars : List Char) :
    Except PatternFault (Option (Nat × Option Nat × List Char)) :=
  match flags.skip chars with
  | '?' :: rest => .ok (some (0, some 1, rest))
  | '*' :: rest => .ok (some (0, none, rest))
  | '+' :: rest => .ok (some (1, none, rest))
  | '\x7b' :: rest => (readCounts flags rest).map fun (low, high, rest) =>
      some (low, high, flags.skip rest)
  | _ => .ok none

/-- The repetition operators after a part. -/
def readOperators (flags : Flags) :
    (bound : Nat) → Part → List Char → Except PatternFault (Part × List Char)
  | 0, part, chars => .ok (part, chars)
  | bound + 1, part, chars => do
      match ← readOperator flags chars with
      | none => return (part, chars)
      | some (low, high, rest) =>
          let lazily := rest.head? == some '?'
          let rest := if lazily then rest.drop 1 else rest
          readOperators flags bound (part.repeated low high (lazily == flags.swapsGreed)) rest

/-- Whether a character may stand in the name of a group. -/
def isNameChar (first : Bool) (c : Char) : Bool :=
  c == '_' || Unicode.isAlphabetic c
    || (!first && (c == '.' || c == '[' || c == ']' || (Unicode.Category.of c).isNumber))

/-- The name of a group up to its closing angle bracket. -/
def readName (names : List String) (chars : List Char) :
    Except PatternFault (String × List Char) :=
  let name := chars.takeWhile (· != '>')
  match chars.drop name.length, name with
  | '>' :: rest, first :: others =>
      let text := String.ofList name
      if !(isNameChar true first && others.all (isNameChar false)) then .error .invalidGroupName
      else if names.contains text then .error (.repeatedGroupName text)
      else .ok (text, rest)
  | _, _ => .error .invalidGroupName

/-- What the text after an opening parenthesis starts. -/
inductive GroupStart where
  /-- A group with the flags inside it and the names in use from there on. -/
  | group (flags : Flags) (names : List String) (rest : List Char)
  /-- Flags for the rest of the enclosing group. -/
  | setFlags (flags : Flags) (rest : List Char)
deriving DecidableEq, Repr

/-- Reads flags after a question mark. -/
def readFlagGroup (remaining : Remaining) (chars : List Char) :
    Except PatternFault GroupStart := do
  if chars.isEmpty then throw .unclosedGroup
  let (changes, colon, rest) ← readFlags false [] chars
  let flags := remaining.flags.apply changes
  if colon then return .group flags remaining.names rest
  else if changes.isEmpty then throw .nothingToRepeat
  else return .setFlags flags rest

/-- Reads the start of a group after its opening parenthesis. -/
def readGroupStart (remaining : Remaining) (chars : List Char) :
    Except PatternFault GroupStart :=
  let named (chars : List Char) : Except PatternFault GroupStart :=
    (readName remaining.names chars).map fun (name, rest) =>
      .group remaining.flags (name :: remaining.names) rest
  match remaining.flags.skip chars with
  | '?' :: '=' :: _ => .error .lookAround
  | '?' :: '!' :: _ => .error .lookAround
  | '?' :: '<' :: '=' :: _ => .error .lookAround
  | '?' :: '<' :: '!' :: _ => .error .lookAround
  | '?' :: 'P' :: '<' :: rest => named rest
  | '?' :: '<' :: rest => named rest
  | '?' :: rest => readFlagGroup remaining rest
  | rest => .ok (.group remaining.flags remaining.names rest)

mutual

/-- Alternatives up to the end of a group or of the pattern. -/
def readAlternatives :
    (bound : Nat) → Remaining → Except PatternFault (List Part × Remaining)
  | 0, _ => .error .nestedTooDeeply
  | bound + 1, remaining => do
      let (parts, remaining) ← readSequence bound remaining
      match remaining.chars with
      | '|' :: rest =>
          let (others, remaining) ← readAlternatives bound { remaining with chars := rest }
          return (Part.sequence parts :: others, remaining)
      | _ => return ([Part.sequence parts], remaining)

/-- The items of an alternative. -/
def readSequence : (bound : Nat) → Remaining → Except PatternFault (List Part × Remaining)
  | 0, _ => .error .nestedTooDeeply
  | bound + 1, remaining =>
      let flags := remaining.flags
      match flags.skip remaining.chars with
      | [] => .ok ([], { remaining with chars := [] })
      | '|' :: rest => .ok ([], { remaining with chars := '|' :: rest })
      | ')' :: rest => .ok ([], { remaining with chars := ')' :: rest })
      | '?' :: _ => .error .nothingToRepeat
      | '*' :: _ => .error .nothingToRepeat
      | '+' :: _ => .error .nothingToRepeat
      | '\x7b' :: _ => .error .nothingToRepeat
      | '(' :: rest => readGroup bound remaining rest
      | '[' :: rest => do
          let (set, depth, rest) ← readClass flags (2 * rest.length + 2) rest
          continueSequence bound (setPart set depth) { remaining with chars := rest }
      | '.' :: rest => do
          let set ← flags.dot
          continueSequence bound (setPart set 0) { remaining with chars := rest }
      | '^' :: rest =>
          continueSequence bound ⟨.assert flags.circumflex, 0, 1⟩ { remaining with chars := rest }
      | '$' :: rest =>
          continueSequence bound ⟨.assert flags.dollar, 0, 1⟩ { remaining with chars := rest }
      | '\\' :: rest => do
          let (atom, rest) ← readEscape flags rest
          let part ← atomPart flags atom
          continueSequence bound part { remaining with chars := rest }
      | c :: rest => do
          let part ← atomPart flags (.literal c false)
          continueSequence bound part { remaining with chars := rest }

/-- The operators after an item, and the items after it. -/
def continueSequence :
    (bound : Nat) → Part → Remaining → Except PatternFault (List Part × Remaining)
  | 0, _, _ => .error .nestedTooDeeply
  | bound + 1, part, remaining => do
      let (part, rest) ←
        readOperators remaining.flags remaining.chars.length part remaining.chars
      let (others, remaining) ← readSequence bound { remaining with chars := rest }
      return (part :: others, remaining)

/-- A group after its opening parenthesis, and the items after it. -/
def readGroup :
    (bound : Nat) → Remaining → List Char → Except PatternFault (List Part × Remaining)
  | 0, _, _ => .error .nestedTooDeeply
  | bound + 1, remaining, chars => do
      match ← readGroupStart remaining chars with
      | .setFlags flags rest =>
          let (others, remaining) ← readSequence bound { remaining with flags, chars := rest }
          return (⟨.empty, 0, 0⟩ :: others, remaining)
      | .group flags names rest =>
          let (parts, inner) ← readAlternatives bound { chars := rest, flags, names }
          let body := Part.alternatives parts
          match inner.chars with
          | ')' :: rest =>
              continueSequence bound { body with depth := body.depth + 1 }
                { chars := rest, flags := remaining.flags, names := inner.names }
          | _ => throw .unclosedGroup

end

/-- The part that a whole text writes. Every third nested call takes a character off the text. -/
def read (text : List Char) : Except PatternFault Part := do
  let (parts, remaining) ←
    readAlternatives (4 * text.length + 4) { chars := text, flags := {}, names := [] }
  if !remaining.chars.isEmpty then throw .unopenedGroup
  let whole := Part.alternatives parts
  if maxDepth < whole.depth then throw .nestedTooDeeply
  if maxSize < whole.size then throw .tooLarge
  return whole

end EarleyChart.Pattern
