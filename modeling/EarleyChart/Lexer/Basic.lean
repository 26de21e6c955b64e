import EarleyChart.Error
import EarleyChart.Lexer.Definition
import EarleyChart.Parse.Run

/-!
Contract: texts cut into tokens.

How patterns match is up to a `PatternEngine`, which a lexer is built with. A lexer asks the set of
its patterns which of them match, and each of these where its first match ends. At every place the
definition with the longest match is chosen, then the one with the highest priority, then the one
that comes first; a match of nothing does not count. Where no definition matches, the text has no
further tokens.
-/

namespace EarleyChart

/-- What the patterns of a lexer are compiled with. A pattern becomes a function that finds the end of
its first match in a text, as a byte offset, and a list of patterns one that tells of each place in
the list whether the pattern there matches a text. A text that is no pattern is refused with a
reason. -/
structure PatternEngine where
  compile : String → Except String (List Char → Option Nat)
  compileSet : List String → Except String (List Char → Nat → Bool)

/-- A token definition with its pattern compiled. -/
structure LexerRule where
  definition : TokenDefinition
  find? : List Char → Option Nat

/-- Rules in the order of their definitions, and the set of their patterns, which reports the rules
that match a text by their places. -/
structure Lexer where
  rules : List LexerRule
  reports : List Char → Nat → Bool

/-- A rule that matches at the start of a text, with its place and the number of bytes it matches. -/
structure LexerMatch where
  index : Nat
  rule : LexerRule
  length : Nat

namespace Lexer

/-- The pattern of a definition, held to the start of what it is matched with. It is put between the
marks of a group, so an unbalanced parenthesis in it can close that group. -/
def anchored (definition : TokenDefinition) : String :=
  "^(?:" ++ definition.pattern ++ ")"

/-- Compiles the pattern of a definition. -/
def compile (engine : PatternEngine) (definition : TokenDefinition) : Except GrammarFault LexerRule :=
  match engine.compile (anchored definition) with
  | .ok find? => .ok ⟨definition, find?⟩
  | .error reason => .error (.invalidPattern definition.name reason)

/-- Compiles the patterns of a list of definitions together. -/
def compileSet (engine : PatternEngine) (definitions : List TokenDefinition) :
    Except GrammarFault (List Char → Nat → Bool) :=
  match engine.compileSet (definitions.map anchored) with
  | .ok reports => .ok reports
  | .error reason => .error (.invalidPatterns reason)

/-- The lexer of a list of definitions. -/
def ofDefinitions (engine : PatternEngine) (definitions : List TokenDefinition) :
    Except GrammarFault Lexer :=
  if definitions.isEmpty then .error .noDefinitions
  else do
    let rules ← definitions.mapM (compile engine)
    let reports ← compileSet engine definitions
    return ⟨rules, reports⟩

/-- The lexer whose definitions a text writes. -/
def read (engine : PatternEngine) (text : String) : Except GrammarFault Lexer :=
  match TokenDefinition.readAll? text with
  | some definitions => ofDefinitions engine definitions
  | none => .error .malformedDefinitions

/-- The rules that the set reports for a text, with their places. -/
def reported (lexer : Lexer) (text : List Char) : List (LexerRule × Nat) :=
  lexer.rules.zipIdx.filter fun entry => lexer.reports text entry.2

/-- The match of a rule at the start of a text, if it is not empty. -/
def matchRule? (text : List Char) (entry : LexerRule × Nat) : Option LexerMatch :=
  match entry.1.find? text with
  | some length => if 0 < length then some ⟨entry.2, entry.1, length⟩ else none
  | none => none

/-- Whether a match is chosen over an earlier one. -/
def isBetter (candidate best : LexerMatch) : Bool :=
  best.length < candidate.length
    || (best.length == candidate.length
      && best.rule.definition.priority < candidate.rule.definition.priority)

/-- The better one of two matches, the first one on a draw. -/
def chooseBetter (best : Option LexerMatch) (candidate : LexerMatch) : Option LexerMatch :=
  match best with
  | none => some candidate
  | some best => if isBetter candidate best then some candidate else some best

/-- The best match of listed rules at the start of a text. -/
def bestOf (entries : List (LexerRule × Nat)) (text : List Char) : Option LexerMatch :=
  (entries.filterMap (matchRule? text)).foldl chooseBetter none

/-- The match that is chosen at the start of a text. -/
def bestMatch? (lexer : Lexer) (text : List Char) : Option LexerMatch :=
  bestOf (lexer.reported text) text

/-- The token of a chosen match. -/
def tokenOf (found : LexerMatch) (position : Position) (text : List Char) : Token where
  kind := found.rule.definition.name
  text := String.ofList text
  line := position.line
  column := position.column
  offset := position.offset

/-- The tokens of a text that stands at a position, with an error at the end where no rule
matches. Every match takes a character off the text, so its length bounds them. -/
def tokensFrom (lexer : Lexer) :
    (bound : Nat) → Position → List Char → List (Except ParseError Token)
  | 0, _, _ => []
  | _ + 1, _, [] => []
  | bound + 1, position, c :: rest =>
      match lexer.bestMatch? (c :: rest) with
      | none => [.error (.unrecognized position c)]
      | some found =>
          let text := Utf8.take found.length (c :: rest)
          let others :=
            tokensFrom lexer bound (position.advance text) (Utf8.drop found.length (c :: rest))
          if found.rule.definition.ignore then others
          else .ok (tokenOf found position text) :: others

/-- The tokens of an input one after the other, with an error at the end where no rule matches. -/
def tokens (lexer : Lexer) (input : String) : List (Except ParseError Token) :=
  lexer.tokensFrom input.toList.length Position.start input.toList

/-- All tokens of an input, if rules match to its end. -/
def tokenize (lexer : Lexer) (input : String) : Except ParseError (List Token) :=
  (lexer.tokens input).mapM id

end Lexer

/-- Cuts an input into tokens and parses them. -/
def Grammar.parseSource (grammar : Grammar) (limits : Limits) (lexer : Lexer) (input : String) :
    Except ParseError Value := do
  grammar.parse limits (← lexer.tokenize input)

end EarleyChart
