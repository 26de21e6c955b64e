import EarleyChart.Document.Language
import EarleyChart.Proofs.Lexing
import EarleyChart.Proofs.Literals

/-!
Contract: how documents are cut into tokens.

The patterns of documents are read once (`lexer_eq`), and no character starts two of them
(`startedBy_starters`). So a legible sequence of lexemes, in which no number runs into what follows it, is
what the lexer cuts out of any text that has the lexemes in order with blanks between them
(`cuts_of_spaced`).
-/

namespace EarleyChart.Document

open Pattern

section Patterns

/-- The set of listed sets of characters. -/
def listed (sets : List CharSet) : CharSet :=
  sets.foldl .union .empty

def blank : CharSet :=
  listed [.single ' ', .single '\t', .single '\r', .single '\n']

def digit : CharSet :=
  listed [.range '0' '9']

/-- The whole part of a number. -/
def whole : Pattern :=
  .alternate (.one (.single '0'))
    (.concat (.one (listed [.range '1' '9'])) (.star (.one digit) true))

def fraction : Pattern :=
  .concat (.one (.single '.')) (.plus (.one digit) true)

def exponent : Pattern :=
  .concat (.one (listed [.single 'e', .single 'E']))
    (.concat (optional (.one (listed [.single '+', .single '-'])) true) (.plus (.one digit) true))

def number : Pattern :=
  .concat (optional (.one (.single '-')) true)
    (.concat whole (.concat (optional fraction true) (optional exponent true)))

/-- The characters that stand for themselves between quote marks. -/
def ordinary : CharSet :=
  .complement (listed [.single '"', .single '\\'])

/-- A character between quote marks, or a backslash with what it escapes. -/
def quotedCharacter : Pattern :=
  .alternate (.one ordinary) (.concat (.one (.single '\\')) (.one (.complement (.single '\n'))))

def quoted : Pattern :=
  .concat (.one (.single '"')) (.concat (.star quotedCharacter true) (.one (.single '"')))

/-- The characters of a word one after the other. -/
def word : List Char → Pattern
  | [] => .empty
  | [c] => .one (.single c)
  | c :: rest => .concat (.one (.single c)) (word rest)

def keyword : Pattern :=
  .alternate (word "true".toList) (.alternate (word "false".toList) (word "null".toList))

/-- The patterns of the token definitions, in their order. -/
def bodies : List Pattern :=
  [.plus (.one blank) true, number, quoted, .one (.single '\x7b'), .one (.single '\x7d'),
   .one (.single '['), .one (.single ']'), .one (.single ':'), .one (.single ','), keyword]

/-- A definition with its pattern, held to the start. -/
def heldRule (definition : TokenDefinition) (body : Pattern) : PatternRule :=
  ⟨definition, .concat (.assert .textStart) body⟩

def documentRules : List PatternRule :=
  definitions.zipWith heldRule bodies

def documentLexer : Lexer :=
  Lexer.ofPatterns documentRules

/-- The characters that stand between tokens without a meaning. -/
def blanks : List Char :=
  [' ', '\t', '\r', '\n']

/-- The characters that start the patterns, in their order. -/
def starters : List (List Char) :=
  [blanks, "-0123456789".toList, ['"'], ['\x7b'], ['\x7d'], ['['], [']'], [':'],
   [','], ['t', 'f', 'n']]

end Patterns

/-- A property of listed characters is decided one by one. -/
theorem forall_mem_of_all {property : Char → Prop} [DecidablePred property] {chars : List Char}
    (all : chars.all (fun c => decide (property c)) = true) : ∀ c ∈ chars, property c :=
  fun c member => of_decide_eq_true (List.all_eq_true.mp all c member)

section Taking

variable {taken rest : List Char}

/-- A number can end before the text. -/
def EndsNumber (rest : List Char) : Prop :=
  ∀ c ∈ rest.head?, c ∈ blanks ++ [',', ']', '\x7d']

theorem EndsNumber.barred {pattern : Pattern} (ends : EndsNumber rest)
    (none : ∀ c ∈ blanks ++ [',', ']', '\x7d'], pattern.starts c = false) : pattern.Barred rest :=
  fun c member => none c (ends c member)

theorem contains_single_self (c : Char) : (CharSet.single c).contains c = true := by
  simp [CharSet.single, CharSet.contains, Unicode.Ranges.contains]

theorem contains_single_of_ne {c other : Char} (different : c ≠ other) :
    (CharSet.single other).contains c = false := by
  have unequal : c.toNat ≠ other.toNat := different ∘ Char.toNat_inj.mp
  simp only [CharSet.single, CharSet.contains, Unicode.Ranges.contains, List.any_cons,
    List.any_nil, Bool.or_false, Bool.and_eq_false_iff, decide_eq_false_iff_not]
  omega

theorem contains_listed (sets : List CharSet) (c : Char) :
    (listed sets).contains c = sets.any fun set => set.contains c := by
  have added (set : CharSet) : (sets.foldl .union set).contains c =
      (set.contains c || sets.any fun set => set.contains c) := by
    induction sets generalizing set with
    | nil => simp
    | cons next sets inductionHypothesis =>
        rw [List.foldl_cons, inductionHypothesis, CharSet.contains, List.any_cons, Bool.or_assoc]
  exact added .empty

theorem toNat_of_isDigit {c : Char} (isDigit : c.isDigit = true) :
    48 ≤ c.toNat ∧ c.toNat ≤ 57 := by
  simpa [Char.isDigit, UInt32.le_iff_toNat_le] using isDigit

theorem contains_digit {c : Char} (isDigit : c.isDigit = true) : digit.contains c = true := by
  have bounds := toNat_of_isDigit isDigit
  simp [digit, contains_listed, CharSet.contains, CharSet.range, Unicode.Ranges.contains, bounds]

theorem takes_whole (n : Nat) (ends : EndsNumber rest) :
    whole.Takes False (Nat.toDigits 10 n) rest := by
  by_cases positive : 0 < n
  · obtain ⟨first, below, positiveFirst, others, digits⟩ := Decimal.toDigits_eq_cons positive
    have leading : ∀ first < 10, 0 < first →
        (listed [.range '1' '9']).contains first.digitChar = true ∧
          (CharSet.single '0').contains first.digitChar = false := by
      decide
    obtain ⟨inRange, noZero⟩ := leading first below positiveFirst
    have allDigits : ∀ c ∈ others, digit.contains c = true := by
      intro c member
      apply contains_digit
      apply Decimal.isDigit_of_mem_toDigits (n := n)
      rw [digits]
      exact List.mem_cons_of_mem _ member
    rw [digits]
    have more : (Pattern.star (.one digit) true).Takes False others rest :=
      (repeats_one allDigits (ends.barred (forall_mem_of_all rfl))).star
    exact ((takes_one inRange).concat more).otherwise (barred_of_head? rfl noZero) rfl
  · obtain rfl : n = 0 := by omega
    exact (takes_one rfl).alternate.loosen

theorem takes_number (n : Int) (ends : EndsNumber rest) :
    number.Takes False (toString n).toList rest := by
  have noFraction : (optional fraction true).Takes False [] ([] ++ rest) :=
    takes_optional_nil (ends.barred (forall_mem_of_all rfl)) rfl
  have noExponent : (optional exponent true).Takes False [] rest :=
    takes_optional_nil (ends.barred (forall_mem_of_all rfl)) rfl
  have unscaled :
      (Pattern.concat (optional fraction true) (optional exponent true)).Takes False [] rest :=
    noFraction.concat noExponent
  have magnitude := (takes_whole n.natAbs ends).concat unscaled
  rw [List.append_nil] at magnitude
  have sign : (optional (.one (.single '-')) true).Takes False (if n < 0 then ['-'] else [])
      (Nat.toDigits 10 n.natAbs ++ rest) := by
    by_cases negative : n < 0
    · rw [if_pos negative]
      exact (takes_one rfl).optional.loosen
    · rw [if_neg negative]
      refine takes_optional_nil ?_ rfl
      intro c isHead
      have member : c ∈ Nat.toDigits 10 n.natAbs := by
        rw [List.head?_append_of_ne_nil _ Nat.toDigits_ne_nil] at isHead
        exact List.mem_of_mem_head? isHead
      have isDigit := Decimal.isDigit_of_mem_toDigits member
      refine contains_single_of_ne ?_
      rintro rfl
      contradiction
  rw [Decimal.toList_toString]
  exact sign.concat magnitude

theorem contains_ordinary {c : Char} (noMark : c ≠ '"') (noBackslash : c ≠ '\\') :
    ordinary.contains c = true := by
  simp [ordinary, CharSet.contains, contains_listed, contains_single_of_ne noMark,
    contains_single_of_ne noBackslash]

theorem repeats_ordinary {c : Char} (plain : ordinary.contains c = true)
    (repeats : quotedCharacter.Repeats taken rest) : quotedCharacter.Repeats (c :: taken) rest :=
  (takes_one plain).alternate.repeats (List.cons_ne_nil c []) repeats

theorem repeats_pair {c : Char} (escaped : (CharSet.complement (.single '\n')).contains c = true)
    (repeats : quotedCharacter.Repeats taken rest) :
    quotedCharacter.Repeats ('\\' :: c :: taken) rest := by
  have noOrdinary : (Pattern.one ordinary).Barred (['\\', c] ++ (taken ++ rest)) :=
    barred_of_head? rfl rfl
  have pair : quotedCharacter.Takes True ['\\', c] (taken ++ rest) :=
    ((takes_one (contains_single_self '\\')).concat (takes_one escaped)).otherwise noOrdinary rfl
  exact pair.repeats (List.cons_ne_nil _ _) repeats

/-- What is written for a character goes on within the quote marks. -/
theorem repeats_escape (c : Char) (repeats : quotedCharacter.Repeats taken rest) :
    quotedCharacter.Repeats (Json.escape c ++ taken) rest := by
  by_cases named : c ∈ ['"', '\\', '\x08', '\t', '\n', '\x0c', '\r']
  · simp only [List.mem_cons, List.not_mem_nil, or_false] at named
    rcases named with rfl | rfl | rfl | rfl | rfl | rfl | rfl <;>
      exact repeats_pair rfl repeats
  · simp only [List.mem_cons, List.not_mem_nil, or_false, not_or] at named
    simp only [Json.escape, named, ↓reduceIte]
    split
    next control =>
      have digits : ∀ code < 0x20, ordinary.contains (Nat.digitChar (code / 16)) = true ∧
          ordinary.contains (Nat.digitChar (code % 16)) = true := by
        decide
      obtain ⟨high, low⟩ := digits c.toNat control
      have zero : ordinary.contains '0' = true := rfl
      exact repeats_pair rfl (repeats_ordinary zero (repeats_ordinary zero
        (repeats_ordinary high (repeats_ordinary low repeats))))
    next => exact repeats_ordinary (contains_ordinary named.1 named.2.1) repeats

theorem takes_quoted (s : String) : quoted.Takes True (Json.quote s).toList rest := by
  have closing : quotedCharacter.Barred (['"'] ++ rest) := barred_of_head? rfl rfl
  have inner (chars : List Char) :
      quotedCharacter.Repeats (chars.flatMap Json.escape) (['"'] ++ rest) := by
    induction chars with
    | nil => exact repeats_nil closing rfl
    | cons c others inductionHypothesis => exact repeats_escape c inductionHypothesis
  have closed := (inner s.toList).star.concat (takes_one (contains_single_self '"'))
  rw [Json.quote, String.toList_ofList]
  exact (takes_one (contains_single_self '"')).concat closed

theorem takes_word (chars : List Char) : (word chars).Takes False chars rest := by
  induction chars with
  | nil => exact takes_empty
  | cons c others inductionHypothesis =>
      cases others with
      | nil => exact (takes_one (contains_single_self c)).loosen
      | cons next others => exact (takes_one (contains_single_self c)).concat inductionHypothesis

end Taking

theorem steady_documentRules : Lexer.Steady documentRules := by
  unfold Lexer.Steady
  decide

/-- No character starts two patterns. -/
theorem startedBy_starters : ∀ entry ∈ documentRules.zipIdx.zip starters, ∀ c ∈ entry.2,
    Lexer.startedBy documentRules c = [entry.1] := by
  have decided : ∀ entry ∈ documentRules.zipIdx.zip starters,
      entry.2.all (fun c => decide (Lexer.startedBy documentRules c = [entry.1])) = true := by
    decide +kernel
  intro entry listed
  exact forall_mem_of_all (decided entry listed)

/-- A text with the given words in order, and blanks between them and at both ends. -/
inductive Spaced : List String → List Char → Prop where
  | ends {gap : List Char} (blank : ∀ c ∈ gap, c ∈ blanks) : Spaced [] gap
  | next {gap : List Char} {first : String} {others : List String} {text : List Char}
      (blank : ∀ c ∈ gap, c ∈ blanks) (further : Spaced others text) :
      Spaced (first :: others) (gap ++ (first.toList ++ text))

/-- The marks of documents: their names, their patterns and their characters. -/
def marks : List (String × String × Char) :=
  [("left_brace", "\\\x7b", '\x7b'), ("right_brace", "\\\x7d", '\x7d'), ("left_bracket", "\\[", '['),
   ("right_bracket", "\\]", ']'), ("colon", ":", ':'), ("comma", ",", ',')]

/-- The lexemes that documents consist of. -/
inductive IsLexeme : Lexeme → Prop where
  | number (n : Int) : IsLexeme ⟨"number", toString n⟩
  | string (s : String) : IsLexeme ⟨"string", Json.quote s⟩
  | keyword {text : String} (listed : text ∈ ["true", "false", "null"]) :
      IsLexeme ⟨Token.keywordKind, text⟩
  | mark {name pattern : String} {c : Char} (listed : (name, pattern, c) ∈ marks) :
      IsLexeme ⟨name, String.ofList [c]⟩

def comma : Lexeme :=
  ⟨"comma", ","⟩

def rightBracket : Lexeme :=
  ⟨"right_bracket", "]"⟩

def rightBrace : Lexeme :=
  ⟨"right_brace", "\x7d"⟩

/-- The marks that can stand after a number. -/
def closers : List Lexeme :=
  [comma, rightBracket, rightBrace]

/-- Lexemes of documents among which a number only stands before a mark that ends it. -/
inductive Legible : List Lexeme → Prop where
  | nil : Legible []
  | cons {first : Lexeme} {others : List Lexeme} (isLexeme : IsLexeme first)
      (ended : first.kind = "number" → ∀ next ∈ others.head?, next ∈ closers)
      (further : Legible others) : Legible (first :: others)

/-- The lexer takes a lexeme off a text that goes on with `rest`. -/
structure Chosen (lexeme : Lexeme) (rest : List Char) (index : Nat) (rule : LexerRule) : Prop where
  chosen : documentLexer.bestMatch? (lexeme.text.toList ++ rest) =
    some ⟨index, rule, Utf8.size lexeme.text.toList⟩
  named : rule.definition.name = lexeme.kind
  kept : rule.definition.ignore = false
  starts : ∃ c, lexeme.text.toList.head? = some c ∧ c ∉ blanks

/-- A lexeme is taken by the definition whose pattern takes its text. -/
theorem chosen_of_takes {definition : TokenDefinition} {body : Pattern} {index : Nat}
    {initials : List Char} {text : String} {settled : Prop} {rest : List Char} {c : Char}
    (listed : ((heldRule definition body, index), initials) ∈ documentRules.zipIdx.zip starters)
    (kept : definition.ignore = false) (isHead : text.toList.head? = some c) (initial : c ∈ initials)
    (visible : ∀ c ∈ initials, c ∉ blanks) (takes : body.Takes settled text.toList rest) :
    Chosen ⟨definition.name, text⟩ rest index (heldRule definition body).rule := by
  obtain ⟨others, parts⟩ := List.head?_eq_some_iff.mp isHead
  have only : Lexer.startedBy documentRules c = [(heldRule definition body, index)] :=
    startedBy_starters _ listed c initial
  have matched := match?_of_takes takes
  rw [parts] at matched
  have found := Lexer.bestMatch?_of_match? steady_documentRules only matched
  rw [← parts] at found
  exact ⟨found, rfl, kept, c, isHead, visible c initial⟩

theorem head?_toString (n : Int) :
    ∃ c ∈ "-0123456789".toList, (toString n).toList.head? = some c := by
  have digits : ∀ digit < 10, Nat.digitChar digit ∈ "-0123456789".toList := by decide
  rw [Decimal.toList_toString]
  by_cases negative : n < 0
  · rw [if_pos negative]
    exact ⟨'-', List.mem_cons_self, rfl⟩
  · rw [if_neg negative, List.nil_append]
    by_cases positive : 0 < n.natAbs
    · obtain ⟨first, below, _, others, written⟩ := Decimal.toDigits_eq_cons positive
      rw [written]
      exact ⟨first.digitChar, digits first below, rfl⟩
    · obtain zero : n.natAbs = 0 := by omega
      rw [zero]
      exact ⟨'0', digits 0 (by omega), rfl⟩

theorem chosen_number (n : Int) {rest : List Char} (ends : EndsNumber rest) :
    ∃ index rule, Chosen ⟨"number", toString n⟩ rest index rule := by
  have listed : ((heldRule { name := "number", pattern := numberPattern } number, 1),
      "-0123456789".toList) ∈ documentRules.zipIdx.zip starters :=
    List.mem_of_getElem? (i := 1) rfl
  obtain ⟨c, initial, isHead⟩ := head?_toString n
  have visible : ∀ c ∈ "-0123456789".toList, c ∉ blanks := forall_mem_of_all rfl
  exact ⟨_, _, chosen_of_takes listed rfl isHead initial visible (takes_number n ends)⟩

theorem chosen_string (s : String) (rest : List Char) :
    ∃ index rule, Chosen ⟨"string", Json.quote s⟩ rest index rule := by
  have listed : ((heldRule { name := "string", pattern := stringPattern } quoted, 2), ['"']) ∈
      documentRules.zipIdx.zip starters :=
    List.mem_of_getElem? (i := 2) rfl
  have isHead : (Json.quote s).toList.head? = some '"' := by
    rw [Json.quote, String.toList_ofList]
    rfl
  have visible : ∀ c ∈ ['"'], c ∉ blanks := forall_mem_of_all rfl
  exact ⟨_, _, chosen_of_takes listed rfl isHead List.mem_cons_self visible (takes_quoted s)⟩

theorem takes_keyword {text : String} (named : text ∈ ["true", "false", "null"])
    (rest : List Char) : keyword.Takes False text.toList rest := by
  simp only [List.mem_cons, List.not_mem_nil, or_false] at named
  rcases named with rfl | rfl | rfl
  · exact (takes_word _).alternate
  · exact (takes_word _).alternate.otherwise (barred_of_head? rfl rfl) rfl
  · exact ((takes_word _).otherwise (barred_of_head? rfl rfl) rfl).otherwise
      (barred_of_head? rfl rfl) rfl

theorem chosen_keyword {text : String} (named : text ∈ ["true", "false", "null"])
    (rest : List Char) : ∃ index rule, Chosen ⟨Token.keywordKind, text⟩ rest index rule := by
  have listed : ((heldRule { name := Token.keywordKind, pattern := "true|false|null" } keyword, 9),
      ['t', 'f', 'n']) ∈ documentRules.zipIdx.zip starters :=
    List.mem_of_getElem? (i := 9) rfl
  have visible : ∀ c ∈ ['t', 'f', 'n'], c ∉ blanks := forall_mem_of_all rfl
  have chosen {c : Char} (isHead : text.toList.head? = some c) (initial : c ∈ ['t', 'f', 'n']) :
      ∃ index rule, Chosen ⟨Token.keywordKind, text⟩ rest index rule :=
    ⟨_, _, chosen_of_takes listed rfl isHead initial visible (takes_keyword named rest)⟩
  simp only [List.mem_cons, List.not_mem_nil, or_false] at named
  rcases named with rfl | rfl | rfl
  · exact chosen (show _ = some 't' from rfl) (by decide)
  · exact chosen (show _ = some 'f' from rfl) (by decide)
  · exact chosen (show _ = some 'n' from rfl) (by decide)

theorem chosen_mark {name pattern : String} {c : Char} (listed : (name, pattern, c) ∈ marks)
    (rest : List Char) : ∃ index rule, Chosen ⟨name, String.ofList [c]⟩ rest index rule := by
  have ruled : ∀ mark ∈ marks, ∃ index < 10,
      ((heldRule { name := mark.1, pattern := mark.2.1 } (.one (.single mark.2.2)), index),
        [mark.2.2]) ∈ documentRules.zipIdx.zip starters := by
    decide
  obtain ⟨index, _, isRule⟩ := ruled _ listed
  have visible : ∀ mark ∈ marks, mark.2.2 ∉ blanks := by decide
  have isHead : (String.ofList [c]).toList.head? = some c := by
    rw [String.toList_ofList]
    rfl
  have takes : (Pattern.one (.single c)).Takes True (String.ofList [c]).toList rest := by
    rw [String.toList_ofList]
    exact takes_one (contains_single_self c)
  exact ⟨_, _, chosen_of_takes isRule rfl isHead List.mem_cons_self
    (List.forall_mem_singleton.mpr (visible _ listed)) takes⟩

theorem chosen_of_isLexeme {lexeme : Lexeme} (isLexeme : IsLexeme lexeme) {rest : List Char}
    (ends : lexeme.kind = "number" → EndsNumber rest) : ∃ index rule, Chosen lexeme rest index rule := by
  cases isLexeme with
  | number n => exact chosen_number n (ends rfl)
  | string s => exact chosen_string s rest
  | keyword listed => exact chosen_keyword listed rest
  | mark listed => exact chosen_mark listed rest

section Gaps

variable {gap rest text : List Char} {lexemes : List Lexeme}

theorem barred_blank {c : Char} (isHead : rest.head? = some c) (visible : c ∉ blanks) :
    (Pattern.one blank).Barred rest := by
  simp only [blanks, List.mem_cons, List.not_mem_nil, or_false, not_or] at visible
  obtain ⟨noSpace, noTab, noReturn, noLine⟩ := visible
  refine barred_of_head? isHead ?_
  simp [Pattern.starts, blank, contains_listed, contains_single_of_ne noSpace,
    contains_single_of_ne noTab, contains_single_of_ne noReturn, contains_single_of_ne noLine]

/-- Blanks are passed over. -/
theorem cuts_gap (blankGap : ∀ c ∈ gap, c ∈ blanks) (barred : (Pattern.one blank).Barred rest)
    (cuts : documentLexer.Cuts rest lexemes) : documentLexer.Cuts (gap ++ rest) lexemes := by
  cases gap with
  | nil => exact cuts
  | cons c gap =>
      have members : ∀ c ∈ blanks, blank.contains c = true := forall_mem_of_all rfl
      have inSet (c' : Char) (member : c' ∈ c :: gap) : blank.contains c' = true :=
        members c' (blankGap c' member)
      have takes : (Pattern.plus (.one blank) true).Takes False (c :: gap) rest :=
        (repeats_one (fun c' member => inSet c' (List.mem_cons_of_mem c member)) barred).plus
          (takes_one (inSet c List.mem_cons_self))
      have listed : ((heldRule { name := "whitespace", pattern := "[ \\t\\r\\n]+", ignore := true }
          (.plus (.one blank) true), 0), blanks) ∈ documentRules.zipIdx.zip starters :=
        List.mem_of_getElem? (i := 0) rfl
      have only := startedBy_starters _ listed c (blankGap c List.mem_cons_self)
      have chosen := Lexer.bestMatch?_of_match? steady_documentRules only (match?_of_takes takes)
      exact .passed (List.cons_ne_nil c gap) chosen rfl cuts

/-- A spaced text whose first lexeme can follow a number ends the number. -/
theorem endsNumber_of_spaced (spaced : Spaced (lexemes.map Lexeme.text) text)
    (first : ∀ next ∈ lexemes.head?, next ∈ closers) :
    EndsNumber text := by
  have gapEnds {gap : List Char} (blankGap : ∀ c ∈ gap, c ∈ blanks) {rest : List Char}
      (others : EndsNumber rest) : EndsNumber (gap ++ rest) := by
    cases gap with
    | nil => exact others
    | cons c gap =>
        intro other isHead
        obtain rfl := Option.some.inj isHead
        exact List.mem_append_left [',', ']', '\x7d'] (blankGap c List.mem_cons_self)
  cases lexemes with
  | nil =>
      cases spaced with
      | ends blankGap =>
          rw [← List.append_nil text]
          exact gapEnds blankGap fun c isHead => nomatch isHead
  | cons lexeme lexemes =>
      cases spaced with
      | next blankGap further =>
          refine gapEnds blankGap ?_
          have texts : ∀ next ∈ closers, next.text.toList ∈ [[','], [']'], ['\x7d']] := by decide
          have isText := texts lexeme (first lexeme rfl)
          simp only [List.mem_cons, List.not_mem_nil, or_false] at isText
          intro other isHead
          rcases isText with isText | isText | isText <;>
            (rw [isText] at isHead; obtain rfl := Option.some.inj isHead; decide)

/-- The lexer cuts legible lexemes out of any text that spaces them. -/
theorem cuts_of_spaced (legible : Legible lexemes)
    (spaced : Spaced (lexemes.map Lexeme.text) text) : documentLexer.Cuts text lexemes := by
  induction legible generalizing text with
  | nil =>
      cases spaced with
      | ends blankGap =>
          rw [← List.append_nil text]
          exact cuts_gap blankGap (fun c isHead => nomatch isHead) .done
  | @cons lexeme lexemes isLexeme ended legible inductionHypothesis =>
      cases spaced with
      | @next gap _ _ text blankGap further =>
          have ends (isNumber : lexeme.kind = "number") : EndsNumber text :=
            endsNumber_of_spaced further (ended isNumber)
          obtain ⟨index, rule, chosen⟩ := chosen_of_isLexeme isLexeme ends
          obtain ⟨c, isHead, visible⟩ := chosen.starts
          have something : lexeme.text.toList ≠ [] := by
            intro empty
            rw [empty] at isHead
            cases isHead
          have kept := Lexer.Cuts.kept something chosen.chosen chosen.kept
            (inductionHypothesis further)
          rw [chosen.named, String.ofList_toList] at kept
          refine cuts_gap blankGap ?_ kept
          refine barred_blank (c := c) ?_ visible
          rw [List.head?_append_of_ne_nil _ something]
          exact isHead

end Gaps

section Reading

/-- The patterns are read as written above, and they are small enough together. -/
theorem readPattern_definitions :
    (definitions.mapM Lexer.readPattern).toOption.map (fun parts =>
        (parts.map Part.pattern, decide (Part.totalSize parts ≤ maxSize))) =
      some (bodies.map (.concat (.assert .textStart)), true) := by
  decide +kernel

theorem lexer_eq : lexer = .ok documentLexer := by
  have decided := readPattern_definitions
  rw [lexer, Lexer.ofDefinitions_engine_eq_ok_iff]
  refine ⟨List.cons_ne_nil _ _, ?_⟩
  cases read : definitions.mapM Lexer.readPattern with
  | error fault =>
      rw [read] at decided
      contradiction
  | ok parts =>
      rw [read] at decided
      obtain ⟨patterns, small⟩ := Prod.mk.inj (Option.some.inj decided)
      refine ⟨parts, rfl, of_decide_eq_true small, ?_⟩
      have rules : Lexer.withPatterns definitions parts = documentRules := by
        rw [Lexer.withPatterns, ← List.zipWith_map_right, patterns, List.zipWith_map_right]
        rfl
      rw [rules, documentLexer]

end Reading

end EarleyChart.Document
