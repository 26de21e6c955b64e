import EarleyChart.Source.Span

/-!
Contract: lexical tokens with their place in the source.

A grammar knows a token by its name: the text of a keyword, the kind of any other token. Past the
last token stands a sentinel of a kind of its own, which has no text.
-/

namespace EarleyChart

/-- A lexical token. The numbers of its place have no limit, as those of a `Position`; `Token.Fits` tells
which tokens keep to machine words up to their ends. -/
structure Token where
  kind : String
  text : String
  line : Nat
  column : Nat
  offset : Nat
deriving DecidableEq, Repr, Inhabited

namespace Token

/-- Kind of the tokens that a grammar knows by their text. -/
def keywordKind : String :=
  "keyword"

/-- Kind of the sentinel past the last token. -/
def endKind : String :=
  "$end"

/-- The name by which a grammar refers to the token. -/
def name (token : Token) : String :=
  if token.kind = keywordKind then token.text else token.kind

def isEnd (token : Token) : Bool :=
  token.kind = endKind

def start (token : Token) : Position :=
  ⟨token.offset, token.line, token.column⟩

/-- The line and column just past one character. -/
def stepPlace (place : Nat × Nat) (c : Char) : Nat × Nat :=
  if c = '\n' then (place.1 + 1, 1) else (place.1, place.2 + 1)

/-- The position just past the token's last character. -/
def stop (token : Token) : Position :=
  let place := token.text.toList.foldl stepPlace (token.line, token.column)
  ⟨token.offset + Utf8.size token.text.toList, place.1, place.2⟩

def span (token : Token) : Span :=
  ⟨token.start, token.stop⟩

/-- The sentinel just past `last`, or at the start of the source when there is no token. -/
def endOfInput (last : Option Token) : Token :=
  let position := (last.map stop).getD Position.start
  { kind := endKind, text := "", line := position.line, column := position.column,
    offset := position.offset }

def display (token : Token) : String :=
  if token.isEnd then "end of input" else "`" ++ token.text ++ "`"

end Token

end EarleyChart
