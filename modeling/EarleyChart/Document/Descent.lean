import EarleyChart.Document.Language

/-!
Contract: JSON documents by recursive descent.

The descent reads the same tokens as the chart and gives the same values, each token telling what
comes next. Its diagnoses name the terminals that could follow and trace nothing.
-/

namespace EarleyChart.Document

/-- What a descent has before it, how many tokens it has taken and the last one of them. -/
structure Descent where
  rest : List Token
  consumed : Nat
  last : Option Token
deriving DecidableEq, Repr

namespace Descent

/-- The start of a descent over tokens. -/
def start (tokens : List Token) : Descent :=
  ⟨tokens, 0, none⟩

/-- The names of the tokens that start a value. -/
def valueStart : List String :=
  ["number", "string", "left_brace", "left_bracket", "true", "false", "null"]

/-- The diagnosis of a token that could not follow. -/
def diagnosis (descent : Descent) (token : Token) (expected : List String) : Diagnosis where
  token := token
  column := descent.consumed
  expected := expected
  traces := []
  omitted := 0

/-- The error at a token that could not follow. -/
def unexpected (descent : Descent) (token : Token) (expected : List String) : ParseError :=
  .unexpectedToken (descent.diagnosis token expected)

/-- Takes the next token; at the end of the tokens the expected ones are missed. -/
def next (descent : Descent) (expected : List String) : Except ParseError (Token × Descent) :=
  match descent.rest with
  | token :: rest => .ok (token, ⟨rest, descent.consumed + 1, some token⟩)
  | [] => .error (.unexpectedEnd (descent.diagnosis (Token.endOfInput descent.last) expected))

/-- Whether the next token has a name. -/
def nextIs (descent : Descent) (name : String) : Bool :=
  descent.rest.head?.any (·.name == name)

/-- Takes the token with a name. -/
def expect (descent : Descent) (name : String) : Except ParseError (Token × Descent) := do
  let (token, descent) ← descent.next [name]
  if token.name = name then return (token, descent) else throw (descent.unexpected token [name])

/-- Takes the key of an entry. Right after the opening brace the object might end as well. -/
def key (descent : Descent) : Except ParseError (String × Descent) := do
  let expected :=
    if descent.last.any (·.name == "left_brace") then ["string", "right_brace"] else ["string"]
  let (token, descent) ← descent.next expected
  if token.name = "string" then return (Literal.unquote token.text, descent)
  else throw (descent.unexpected token expected)

mutual

/-- A value. The bound counts nested calls. -/
def value : (bound : Nat) → Descent → Except ParseError (Value × Descent)
  | 0, descent => .error (.unexpectedEnd (descent.diagnosis (Token.endOfInput descent.last) []))
  | bound + 1, descent => do
      let (token, descent) ← descent.next valueStart
      match token.name with
      | "number" => return ((Action.number 0).apply [.token token], descent)
      | "string" => return (.string (Literal.unquote token.text), descent)
      | "true" => return (.bool true, descent)
      | "false" => return (.bool false, descent)
      | "null" => return (.nil, descent)
      | "left_bracket" =>
          if descent.nextIs "right_bracket" then
            let (_, descent) ← descent.next ["right_bracket"]
            return (.array [], descent)
          else
            let (items, descent) ← items bound descent
            return (.array items, descent)
      | "left_brace" =>
          if descent.nextIs "right_brace" then
            let (_, descent) ← descent.next ["right_brace"]
            return (.map [], descent)
          else entries bound [] descent
      | _ => throw (descent.unexpected token valueStart)

/-- The items of an array up to its closing bracket. -/
def items : (bound : Nat) → Descent → Except ParseError (List Value × Descent)
  | 0, descent => .error (.unexpectedEnd (descent.diagnosis (Token.endOfInput descent.last) []))
  | bound + 1, descent => do
      let (item, descent) ← value bound descent
      let (token, descent) ← descent.next ["comma", "right_bracket"]
      match token.name with
      | "comma" =>
          let (others, descent) ← items bound descent
          return (item :: others, descent)
      | "right_bracket" => return ([item], descent)
      | _ => throw (descent.unexpected token ["comma", "right_bracket"])

/-- The entries of an object up to its closing brace, added to those before them. -/
def entries :
    (bound : Nat) → List (String × Value) → Descent → Except ParseError (Value × Descent)
  | 0, _, descent =>
      .error (.unexpectedEnd (descent.diagnosis (Token.endOfInput descent.last) []))
  | bound + 1, before, descent => do
      let (key, descent) ← descent.key
      let (_, descent) ← descent.expect "colon"
      let (value, descent) ← value bound descent
      let entries := Value.insertEntry key value before
      let (token, descent) ← descent.next ["comma", "right_brace"]
      match token.name with
      | "comma" => Descent.entries bound entries descent
      | "right_brace" => return (.map entries, descent)
      | _ => throw (descent.unexpected token ["comma", "right_brace"])

end

end Descent

/-- The value of a document's tokens, by recursive descent. Every second nested call takes a token,
so twice their number bounds the calls. -/
def descendTokens (tokens : List Token) : Except ParseError Value := do
  let (value, descent) ← Descent.value (2 * tokens.length + 2) (Descent.start tokens)
  match descent.rest with
  | [] => return value
  | extra :: _ => throw (descent.unexpected extra [])

/-- The value of a document, by recursive descent. -/
def descend (input : String) : Except ParseError Value :=
  match lexer with
  | .ok lexer => lexer.tokenize input >>= descendTokens
  | .error fault => .error (.invalidGrammar fault)

end EarleyChart.Document
