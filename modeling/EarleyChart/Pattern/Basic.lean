import EarleyChart.Pattern.CharSet

/-!
Contract: patterns and how they match.

`Pattern.match?` takes the first way in which a pattern matches, in the order in which the pattern
prefers them: the left of two alternatives first, a greedy repetition once more before it ends, a
lazy one the other way round. The choices of a pattern are numbered, and a way that comes to one of
them twice without passing a character is left: what follows from that choice is being tried
already. So a repetition that matches nothing goes on behind itself.
-/

namespace EarleyChart

/-- A place in a text: the character before it, the text after it, the bytes passed and the choices
that have been come to at this place. -/
structure Cursor where
  before : Option Char
  rest : List Char
  position : Nat
  seen : List Nat
deriving DecidableEq, Repr

namespace Cursor

/-- The start of a text. -/
def start (text : List Char) : Cursor :=
  ⟨none, text, 0, []⟩

/-- The place behind the next character, with the text that follows it. -/
def pass (cursor : Cursor) (c : Char) (rest : List Char) : Cursor :=
  ⟨some c, rest, cursor.position + c.utf8Size, []⟩

/-- The place with one more choice come to. -/
def see (cursor : Cursor) (number : Nat) : Cursor :=
  { cursor with seen := number :: cursor.seen }

end Cursor

/-- A condition on a place in a text. -/
inductive Assertion where
  | textStart
  | textEnd
  | lineStart
  | lineEnd
  /-- The start of a line, where a carriage return ends a line too. -/
  | returnLineStart
  | returnLineEnd
  | wordBoundary (word : CharSet)
  | noWordBoundary (word : CharSet)
  | wordStart (word : CharSet)
  | wordEnd (word : CharSet)
  | halfWordStart (word : CharSet)
  | halfWordEnd (word : CharSet)
deriving DecidableEq, Repr

namespace Assertion

/-- Whether a neighbour of a place is a word character. -/
def isWord (word : CharSet) (neighbour : Option Char) : Bool :=
  neighbour.any word.contains

def holds (assertion : Assertion) (cursor : Cursor) : Bool :=
  let before := cursor.before
  let after := cursor.rest.head?
  match assertion with
  | textStart => cursor.position == 0
  | textEnd => after.isNone
  | lineStart => before.isNone || before == some '\n'
  | lineEnd => after.isNone || after == some '\n'
  | returnLineStart =>
      before.isNone || before == some '\n' || (before == some '\r' && after != some '\n')
  | returnLineEnd =>
      after.isNone || after == some '\r' || (after == some '\n' && before != some '\r')
  | wordBoundary word => isWord word before != isWord word after
  | noWordBoundary word => isWord word before == isWord word after
  | wordStart word => !isWord word before && isWord word after
  | wordEnd word => isWord word before && !isWord word after
  | halfWordStart word => !isWord word before
  | halfWordEnd word => !isWord word after

end Assertion

/-- A pattern. -/
inductive Pattern where
  | empty
  | one (set : CharSet)
  | assert (assertion : Assertion)
  | concat (first second : Pattern)
  | alternate (first second : Pattern)
  /-- Any number of matches of a body that matches something. -/
  | star (body : Pattern) (greedy : Bool)
  /-- One match or more. -/
  | plus (body : Pattern) (greedy : Bool)
deriving DecidableEq, Repr

namespace Pattern

/-- Number of the choices in a pattern. -/
def choices : Pattern → Nat
  | .empty => 0
  | .one _ => 0
  | .assert _ => 0
  | .concat first second => first.choices + second.choices
  | .alternate first second => 1 + first.choices + second.choices
  | .star body _ => 1 + body.choices
  | .plus body _ => 1 + body.choices

/-- Goes on in one of two ways, in the second if the first fails, or the other way round. A choice that
has been come to at the same place before leads nowhere. -/
def choose (number : Nat) (firstGoes : Bool) (first second : Cursor → Option Nat)
    (cursor : Cursor) : Option Nat :=
  if number ∈ cursor.seen then none
  else if firstGoes then (first (cursor.see number)).or (second (cursor.see number))
  else (second (cursor.see number)).or (first (cursor.see number))

/-- Chooses between `body`, after which the choice comes again, and going on. Each repetition but the
last passes a character, so a bound above the number of characters left is never used up. -/
def iterate (body : Cursor → (Cursor → Option Nat) → Option Nat) (number : Nat) (greedy : Bool) :
    (bound : Nat) → Cursor → (Cursor → Option Nat) → Option Nat
  | 0, _, _ => none
  | bound + 1, cursor, goOn =>
      choose number greedy
        (fun cursor => body cursor fun stop => iterate body number greedy bound stop goOn) goOn cursor

/-- Matches a pattern at a place and goes on from where the match ends. The choices of the pattern have
the numbers from `number` on. -/
def matchAt : Pattern → (number : Nat) → Cursor → (Cursor → Option Nat) → Option Nat
  | .empty, _, cursor, goOn => goOn cursor
  | .one set, _, cursor, goOn =>
      match cursor.rest with
      | [] => none
      | c :: rest => if set.contains c then goOn (cursor.pass c rest) else none
  | .assert assertion, _, cursor, goOn => if assertion.holds cursor then goOn cursor else none
  | .concat first second, number, cursor, goOn =>
      first.matchAt number cursor fun middle =>
        second.matchAt (number + first.choices) middle goOn
  | .alternate first second, number, cursor, goOn =>
      choose number true (fun cursor => first.matchAt (number + 1) cursor goOn)
        (fun cursor => second.matchAt (number + 1 + first.choices) cursor goOn) cursor
  | .star body greedy, number, cursor, goOn =>
      iterate (body.matchAt (number + 1)) number greedy (cursor.rest.length + 1) cursor goOn
  | .plus body greedy, number, cursor, goOn =>
      body.matchAt (number + 1) cursor fun stop =>
        iterate (body.matchAt (number + 1)) number greedy (stop.rest.length + 1) stop goOn

/-- Whether a pattern can only match at the start of a text. -/
def isAnchored : Pattern → Bool
  | .assert .textStart => true
  | .concat first _ => first.isAnchored
  | .alternate first second => first.isAnchored && second.isAnchored
  | .plus body _ => body.isAnchored
  | _ => false

/-- The end of the first match that starts at a place or after it. -/
def searchFrom (pattern : Pattern) (before : Option Char) (position : Nat) :
    List Char → Option Nat
  | [] => pattern.matchAt 0 ⟨before, [], position, []⟩ fun stop => some stop.position
  | c :: rest =>
      (pattern.matchAt 0 ⟨before, c :: rest, position, []⟩ fun stop => some stop.position).or
        (pattern.searchFrom (some c) (position + c.utf8Size) rest)

/-- Number of bytes up to the end of the leftmost match in a text. A pattern that matches at the
start only need not be tried elsewhere. -/
def match? (pattern : Pattern) (text : List Char) : Option Nat :=
  if pattern.isAnchored then
    pattern.matchAt 0 (Cursor.start text) fun stop => some stop.position
  else pattern.searchFrom none 0 text

/-- Whether a pattern can match the empty text. -/
def isNullable : Pattern → Bool
  | .empty => true
  | .one _ => false
  | .assert _ => true
  | .concat first second => first.isNullable && second.isNullable
  | .alternate first second => first.isNullable || second.isNullable
  | .star _ _ => true
  | .plus body _ => body.isNullable

/-- Nothing or one match, by preference. -/
def optional (body : Pattern) (greedy : Bool) : Pattern :=
  if greedy then .alternate body .empty else .alternate .empty body

/-- Any number of matches. Of a body that can match the empty text, the first match may be empty. -/
def zeroOrMore (body : Pattern) (greedy : Bool) : Pattern :=
  if body.isNullable then optional (.plus body greedy) greedy else .star body greedy

/-- The given number of matches, followed by `last`. -/
def exactly (body : Pattern) (count : Nat) (last : Pattern) : Pattern :=
  Nat.repeat (.concat body) count last

/-- At most the given number of matches, each inside the choice to go on. -/
def atMost (body : Pattern) (greedy : Bool) : (count : Nat) → Pattern
  | 0 => .empty
  | count + 1 =>
      Nat.repeat (fun more => optional (.concat body more) greedy) count (optional body greedy)

/-- At least `low` and at most `high` matches. -/
def repeated (body : Pattern) (low : Nat) (high : Option Nat) (greedy : Bool) : Pattern :=
  match high with
  | some high =>
      if low = high ∧ low = 1 then body
      else exactly body low (atMost body greedy (high - low))
  | none =>
      if low = 0 then zeroOrMore body greedy else exactly body (low - 1) (.plus body greedy)

end Pattern

end EarleyChart
