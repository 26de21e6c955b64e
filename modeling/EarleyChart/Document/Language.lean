import EarleyChart.Grammar.Declaration
import EarleyChart.Pattern.Engine

/-!
Contract: the language of JSON documents as a lexer and a grammar.

Objects reduce to maps and arrays to arrays; lists are built from their end by a production that
recurses on the right. Numbers, texts and the three keywords reduce to their values.
-/

namespace EarleyChart.Document

/-- Pattern of numbers. -/
def numberPattern : String :=
  "-?(?:0|[1-9][0-9]*)(?:\\.[0-9]+)?(?:[eE][+-]?[0-9]+)?"

/-- Pattern of texts between double quote marks. -/
def stringPattern : String :=
  "\"(?:[^\"\\\\]|\\\\.)*\""

/-- The token definitions of documents. -/
def definitions : List TokenDefinition :=
  [{ name := "whitespace", pattern := "[ \\t\\r\\n]+", ignore := true },
   { name := "number", pattern := numberPattern },
   { name := "string", pattern := stringPattern },
   { name := "left_brace", pattern := "\\\x7b" },
   { name := "right_brace", pattern := "\\\x7d" },
   { name := "left_bracket", pattern := "\\[" },
   { name := "right_bracket", pattern := "\\]" },
   { name := "colon", pattern := ":" },
   { name := "comma", pattern := "," },
   { name := Token.keywordKind, pattern := "true|false|null" }]

/-- The lexer of documents. -/
def lexer : Except GrammarFault Lexer :=
  Lexer.ofDefinitions Pattern.engine definitions

/-- The terminals of documents. -/
def terminals : List String :=
  ["number", "string", "true", "false", "null", "left_brace", "right_brace", "left_bracket",
   "right_bracket", "colon", "comma"]

/-- A rule without a reducer. -/
def plain (lhs : String) (rhs : List String) : Rule :=
  { lhs, rhs, reducer := none }

/-- A rule with a built-in action. -/
def acting (lhs : String) (rhs : List String) (action : Action) : Rule :=
  { lhs, rhs, reducer := some (.builtin action) }

/-- The rules of documents. -/
def rules : List Rule :=
  [plain "start" ["expr"],
   plain "expr" ["array"],
   plain "expr" ["object"],
   plain "expr" ["boolean"],
   acting "expr" ["number"] (.number 0),
   acting "expr" ["string"] (.unquote 0),
   acting "expr" ["null"] (.constant .nil),
   acting "boolean" ["true"] (.constant (.bool true)),
   acting "boolean" ["false"] (.constant (.bool false)),
   acting "object" ["left_brace", "object_entry_list", "right_brace"] (.entries 1),
   acting "object" ["left_brace", "right_brace"] .emptyMap,
   acting "object_entry_list" ["object_entry", "comma", "object_entry_list"] (.cons 0 2),
   acting "object_entry_list" ["object_entry"] (.singleton 0),
   acting "object_entry" ["string", "colon", "expr"] (.pair 0 2),
   acting "array" ["left_bracket", "array_items", "right_bracket"] (.pick 1),
   acting "array" ["left_bracket", "right_bracket"] .emptyList,
   acting "array_items" ["expr", "comma", "array_items"] (.cons 0 2),
   acting "array_items" ["expr"] (.singleton 0)]

/-- What the grammar of documents is built from. -/
def declaration : Declaration where
  terminals := terminals
  start := some "start"
  rules := rules

/-- The grammar of documents. -/
def grammar : Except GrammarFault Grammar :=
  declaration.build

/-- The value of a document's tokens, by the chart. -/
def parseTokens (limits : Limits) (tokens : List Token) : Except ParseError Value :=
  match grammar with
  | .ok grammar => grammar.parse limits tokens
  | .error fault => .error (.invalidGrammar fault)

/-- The value of a document, by the chart. -/
def parse (limits : Limits) (input : String) : Except ParseError Value :=
  match grammar, lexer with
  | .ok grammar, .ok lexer => grammar.parseSource limits lexer input
  | .error fault, _ => .error (.invalidGrammar fault)
  | _, .error fault => .error (.invalidGrammar fault)

end EarleyChart.Document
