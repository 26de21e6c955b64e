import EarleyChart.Pattern.Flags
import EarleyChart.Text.Literal
import EarleyChart.Unicode.Script

/-!
Contract: what a backslash and the characters after it mean in a pattern.

An escape is a character, a set of characters or an assertion. Characters with a meaning of their own
and other basic Latin characters that are neither letters nor digits may be escaped to stand for
themselves; a letter or digit without a meaning may not.
-/

namespace EarleyChart.Pattern

/-- A part of a pattern that stands for itself, in a class or outside. -/
inductive Atom where
  /-- A character, and whether it was given by the two digits of a byte. -/
  | literal (c : Char) (byte : Bool)
  | set (set : CharSet)
  | assertion (assertion : Assertion)
deriving DecidableEq, Repr

/-- The character with a code. -/
def charOfCode? (code : Nat) : Option Char :=
  if code < 0xD800 || (0xE000 ≤ code && code ≤ 0x10FFFF) then some (Char.ofNat code) else none

/-- The number that hexadecimal digits write. -/
def hexNumber? (digits : List Char) : Option Nat :=
  digits.foldl (fun number c => do return 16 * (← number) + (← Literal.hexDigit? c)) (some 0)

/-- The given number of digits, with what follows them. -/
def takeDigits (flags : Flags) : (count : Nat) → List Char → Option (List Char × List Char)
  | 0, chars => some ([], chars)
  | _ + 1, [] => none
  | count + 1, c :: rest =>
      (takeDigits flags count (flags.skip rest)).map fun (digits, rest) => (c :: digits, rest)

/-- The text up to a closing brace, with what follows the brace. -/
def takeBraced? : List Char → Option (List Char × List Char)
  | [] => none
  | '\x7d' :: rest => some ([], rest)
  | c :: rest => (takeBraced? rest).map fun (inside, rest) => (c :: inside, rest)

/-- A character given by its code: in braces, or with `count` digits. -/
def readCode (flags : Flags) (count : Nat) (chars : List Char) :
    Except PatternFault (Char × List Char) :=
  let taken : Option (List Char × List Char) := match chars with
    | '\x7b' :: rest =>
        (takeBraced? rest).map fun (inside, rest) =>
          (if flags.ignoresBlanks then inside.filter (!Unicode.isWhitespace ·) else inside, rest)
    | chars => takeDigits flags count chars
  match taken with
  | none => .error .unfinishedEscape
  | some (digits, rest) =>
      if digits.isEmpty then .error .invalidCode
      else match (hexNumber? digits).bind charOfCode? with
        | some c => .ok (c, rest)
        | none => .error .invalidCode

/-- A property name in the form in which names are compared: in lower case, without blanks, low
lines, hyphens and the word `is` in front. -/
def normalizeName (name : List Char) : String :=
  let lower := (name.filter (·.toNat < 128)).map Char.toLower
  let startsWithIs := (name.take 2).map Char.toLower == ['i', 's']
  let body := (if startsWithIs then lower.drop 2 else lower).filter fun c =>
    c != ' ' && c != '_' && c != '-'
  if startsWithIs && body == ['c'] then "isc" else String.ofList body

/-- The binary property with a normalized name. -/
def binaryProperty? (name : String) : Option CharProperty :=
  match name with
  | "alphabetic" | "alpha" => some .alphabetic
  | "lowercase" | "lower" => some .lowercase
  | "uppercase" | "upper" => some .uppercase
  | "whitespace" | "space" | "wspace" => some .whitespace
  | "idstart" | "ids" => some .identifierStart
  | "idcontinue" | "idc" => some .identifierPart
  | "xidstart" | "xids" => some .stableIdentifierStart
  | "xidcontinue" | "xidc" => some .stableIdentifierPart
  | _ => none

/-- The general category, or group of them, with a normalized name. -/
def generalCategory? (name : String) : Option CharProperty :=
  match name with
  | "any" => some .any
  | "ascii" => some .ascii
  | "assigned" => some .assigned
  | "l" | "letter" => some .letter
  | "lc" | "casedletter" => some .casedLetter
  | "lu" | "uppercaseletter" => some (.category .uppercaseLetter)
  | "ll" | "lowercaseletter" => some (.category .lowercaseLetter)
  | "lt" | "titlecaseletter" => some (.category .titlecaseLetter)
  | "lm" | "modifierletter" => some (.category .modifierLetter)
  | "lo" | "otherletter" => some (.category .otherLetter)
  | "m" | "mark" | "combiningmark" => some .mark
  | "mn" | "nonspacingmark" => some (.category .nonspacingMark)
  | "mc" | "spacingmark" => some (.category .spacingMark)
  | "me" | "enclosingmark" => some (.category .enclosingMark)
  | "n" | "number" => some .number
  | "nd" | "decimalnumber" | "digit" => some (.category .decimalNumber)
  | "nl" | "letternumber" => some (.category .letterNumber)
  | "no" | "othernumber" => some (.category .otherNumber)
  | "p" | "punctuation" | "punct" => some .punctuation
  | "pc" | "connectorpunctuation" => some (.category .connectorPunctuation)
  | "pd" | "dashpunctuation" => some (.category .dashPunctuation)
  | "ps" | "openpunctuation" => some (.category .openPunctuation)
  | "pe" | "closepunctuation" => some (.category .closePunctuation)
  | "pi" | "initialpunctuation" => some (.category .initialPunctuation)
  | "pf" | "finalpunctuation" => some (.category .finalPunctuation)
  | "po" | "otherpunctuation" => some (.category .otherPunctuation)
  | "s" | "symbol" => some .symbol
  | "sm" | "mathsymbol" => some (.category .mathSymbol)
  | "sc" | "currencysymbol" => some (.category .currencySymbol)
  | "sk" | "modifiersymbol" => some (.category .modifierSymbol)
  | "so" | "othersymbol" => some (.category .otherSymbol)
  | "z" | "separator" => some .separator
  | "zs" | "spaceseparator" => some (.category .spaceSeparator)
  | "zl" | "lineseparator" => some (.category .lineSeparator)
  | "zp" | "paragraphseparator" => some (.category .paragraphSeparator)
  | "c" | "other" => some .other
  | "cc" | "control" | "cntrl" => some (.category .control)
  | "cf" | "format" => some (.category .format)
  | "cs" | "surrogate" => some (.category .surrogate)
  | "co" | "privateuse" => some (.category .privateUse)
  | "cn" | "unassigned" => some (.category .unassigned)
  | _ => none

/-- The set that a name alone stands for: a binary property, a general category or a script. -/
def namedProperty? (name : List Char) : Option CharSet :=
  let name := normalizeName name
  ((binaryProperty? name).map .property)
    <|> ((generalCategory? name).map .property)
    <|> ((Unicode.Script.ranges? name).map .ranges)

/-- The set of the characters for which a property has a value. -/
def propertyValue? (property value : List Char) : Option CharSet :=
  match normalizeName property with
  | "gc" | "generalcategory" => (generalCategory? (normalizeName value)).map .property
  | "sc" | "script" | "scx" | "scriptextensions" =>
      (Unicode.Script.ranges? (normalizeName value)).map .ranges
  | _ => none

/-- A property and its value around the first colon or equals sign, and whether they are unequal. -/
def splitQuery (query : List Char) : Option (List Char × List Char × Bool) :=
  let property := query.takeWhile fun c => c != ':' && c != '='
  match query.drop property.length with
  | [] => none
  | separator :: value =>
      if separator = '=' ∧ property.getLast? = some '!' then some (property.dropLast, value, true)
      else some (property, value, false)

/-- The set of a property query. -/
def queryProperty? (query : List Char) : Option CharSet :=
  match splitQuery query with
  | none => namedProperty? query
  | some (property, value, unequal) =>
      (propertyValue? property value).map fun set => if unequal then .complement set else set

/-- The name of a property after its mark: one character, or a query in braces. -/
def takeQuery (chars : List Char) : Except PatternFault (List Char × List Char) :=
  match chars with
  | [] => .error .unfinishedEscape
  | '\x7b' :: rest =>
      match takeBraced? rest with
      | some taken => .ok taken
      | none => .error .unfinishedEscape
  | '\\' :: _ => .error .unknownProperty
  | c :: rest => .ok ([c], rest)

/-- A property class, after its mark. -/
def readProperty (flags : Flags) (negated : Bool) (chars : List Char) :
    Except PatternFault (CharSet × List Char) := do
  let (query, rest) ← takeQuery (flags.skip chars)
  if !flags.unicode then throw .splitsCharacter
  match queryProperty? query with
  | none => throw .unknownProperty
  | some set => return (← flags.negate negated (flags.fold set), rest)

/-- The assertion of a word boundary that is named in braces. -/
def namedBoundary? (word : CharSet) (name : String) : Option Assertion :=
  match name with
  | "start" => some (.wordStart word)
  | "end" => some (.wordEnd word)
  | "start-half" => some (.halfWordStart word)
  | "end-half" => some (.halfWordEnd word)
  | _ => none

/-- A word boundary, after its mark. Braces with a count after it are a repetition. -/
def readBoundary (flags : Flags) (chars : List Char) :
    Except PatternFault (Assertion × List Char) :=
  let isNameChar (c : Char) : Bool := c.isAlpha || c == '-'
  match chars with
  | '\x7b' :: rest =>
      let inside := flags.skip rest
      if inside.isEmpty then .error .unknownBoundary
      else if inside.head?.any isNameChar then
        let name := inside.takeWhile isNameChar
        match inside.drop name.length with
        | '\x7d' :: rest =>
            match namedBoundary? flags.word (String.ofList name) with
            | some assertion => .ok (assertion, rest)
            | none => .error .unknownBoundary
        | _ => .error .unknownBoundary
      else .ok (.wordBoundary flags.word, chars)
  | _ => .ok (.wordBoundary flags.word, chars)

/-- Whether a backslash makes a character stand for itself. -/
def isEscapable (c : Char) : Bool :=
  c.toNat < 128 && !c.isAlphanum && c != '<' && c != '>'

/-- A class letter with the set that it stands for. -/
def readShorthand (flags : Flags) (set : CharSet) (negated : Bool) (rest : List Char) :
    Except PatternFault (Atom × List Char) := do
  return (.set (← flags.negate negated set), rest)

/-- An escape, after its backslash. -/
def readEscape (flags : Flags) (chars : List Char) : Except PatternFault (Atom × List Char) :=
  match chars with
  | [] => .error .unfinishedEscape
  | c :: rest =>
      let special (c : Char) : Except PatternFault (Atom × List Char) :=
        .ok (.literal c false, rest)
      let assertion (a : Assertion) : Except PatternFault (Atom × List Char) :=
        .ok (.assertion a, rest)
      if c.isDigit then .error .backreference
      else if isEscapable c then special c
      else match c with
        | 'x' =>
            let braced := (flags.skip rest).head? == some '\x7b'
            (readCode flags 2 (flags.skip rest)).map fun (c, rest) => (.literal c !braced, rest)
        | 'u' => (readCode flags 4 (flags.skip rest)).map fun (c, rest) => (.literal c false, rest)
        | 'U' => (readCode flags 8 (flags.skip rest)).map fun (c, rest) => (.literal c false, rest)
        | 'p' => (readProperty flags false rest).map fun (set, rest) => (.set set, rest)
        | 'P' => (readProperty flags true rest).map fun (set, rest) => (.set set, rest)
        | 'd' => readShorthand flags flags.digit false rest
        | 'D' => readShorthand flags flags.digit true rest
        | 's' => readShorthand flags flags.space false rest
        | 'S' => readShorthand flags flags.space true rest
        | 'w' => readShorthand flags flags.word false rest
        | 'W' => readShorthand flags flags.word true rest
        | 'a' => special '\x07'
        | 'f' => special '\x0c'
        | 't' => special '\t'
        | 'n' => special '\n'
        | 'r' => special '\r'
        | 'v' => special '\x0b'
        | 'A' => assertion .textStart
        | 'z' => assertion .textEnd
        | 'b' => (readBoundary flags rest).map fun (a, rest) => (.assertion a, rest)
        | 'B' => if flags.unicode then assertion (.noWordBoundary flags.word)
            else .error .splitsCharacter
        | '<' => assertion (.wordStart flags.word)
        | '>' => assertion (.wordEnd flags.word)
        | c => .error (.unknownEscape c)

end EarleyChart.Pattern
