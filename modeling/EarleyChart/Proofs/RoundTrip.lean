import EarleyChart.Proofs.Agreement
import EarleyChart.Proofs.DocumentTokens
import EarleyChart.Proofs.PlainValues
import EarleyChart.Value.Json

/-!
Contract: the text of a value parses back to the value.

The text of a document is its lexemes one after the other (`join_lexemes`). The lexemes of a plain value
are legible, so that blanks between them do not change what is cut, and tokens with these lexemes
spell the value. A parse gives back what its tokens spell (`parseTokens_of_spells`).
-/

namespace EarleyChart

namespace Json

open Document

def colon : Lexeme :=
  ⟨"colon", ":"⟩

def leftBracket : Lexeme :=
  ⟨"left_bracket", "["⟩

def leftBrace : Lexeme :=
  ⟨"left_brace", "\x7b"⟩

/-- Parts with commas between them, and a closing mark after them. -/
def enclose (closing : Lexeme) : List (List Lexeme) → List Lexeme
  | [] => [closing]
  | [part] => part ++ [closing]
  | part :: next :: parts => part ++ comma :: enclose closing (next :: parts)

mutual

/-- The lexemes of a document's text. -/
def lexemes : Json → List Lexeme
  | .null => [⟨Token.keywordKind, "null"⟩]
  | .bool b => [⟨Token.keywordKind, if b then "true" else "false"⟩]
  | .int n => [⟨"number", toString n⟩]
  | .float x => [⟨"number", Decimal.Style.json.write x⟩]
  | .string s => [⟨"string", quote s⟩]
  | .array items => leftBracket :: enclose rightBracket (itemLexemes items)
  | .object members => leftBrace :: enclose rightBrace (memberLexemes members)
termination_by structural document => document

def itemLexemes : List Json → List (List Lexeme)
  | [] => []
  | item :: rest => lexemes item :: itemLexemes rest
termination_by structural items => items

def memberLexemes : List (String × Json) → List (List Lexeme)
  | [] => []
  | (key, value) :: rest => (⟨"string", quote key⟩ :: colon :: lexemes value) :: memberLexemes rest
termination_by structural members => members

end

/-- The text of lexemes without blanks. -/
def textOf (lexemes : List Lexeme) : String :=
  String.join (lexemes.map Lexeme.text)

@[simp] theorem textOf_cons (lexeme : Lexeme) (rest : List Lexeme) :
    textOf (lexeme :: rest) = lexeme.text ++ textOf rest := by
  simp [textOf]

@[simp] theorem textOf_nil : textOf [] = "" := by
  simp [textOf]

@[simp] theorem textOf_append (first second : List Lexeme) :
    textOf (first ++ second) = textOf first ++ textOf second := by
  simp [textOf]

theorem textOf_enclose (closing : Lexeme) (parts : List (List Lexeme)) :
    textOf (enclose closing parts) =
      String.intercalate "," (parts.map textOf) ++ closing.text := by
  fun_induction enclose closing parts with
  | case1 => simp
  | case2 part => simp
  | case3 part next parts inductionHypothesis =>
      simp only [textOf_append, textOf_cons, inductionHypothesis, List.map_cons,
        String.intercalate_cons_cons, String.append_assoc]
      rfl

mutual

/-- The text of a document is its lexemes one after the other. -/
theorem textOf_lexemes (document : Json) : textOf document.lexemes = document.compact := by
  cases document with
  | null => simp [lexemes, compact]
  | bool b => simp [lexemes, compact]
  | int n => simp [lexemes, compact]
  | float x => simp [lexemes, compact]
  | string s => simp [lexemes, compact]
  | array items =>
      rw [lexemes, compact, textOf_cons, textOf_enclose, textOf_itemLexemes items,
        String.append_assoc]
      rfl
  | object members =>
      rw [lexemes, compact, textOf_cons, textOf_enclose, textOf_memberLexemes members,
        String.append_assoc]
      rfl
termination_by structural document

theorem textOf_itemLexemes (items : List Json) :
    (itemLexemes items).map textOf = compactItems items := by
  cases items with
  | nil => rfl
  | cons item rest =>
      rw [itemLexemes, compactItems, List.map_cons, textOf_lexemes item, textOf_itemLexemes rest]
termination_by structural items

theorem textOf_memberLexemes (members : List (String × Json)) :
    (memberLexemes members).map textOf = compactMembers members := by
  cases members with
  | nil => rfl
  | cons member rest =>
      obtain ⟨key, value⟩ := member
      rw [memberLexemes, compactMembers, List.map_cons, textOf_cons, textOf_cons,
        textOf_lexemes value, textOf_memberLexemes rest, String.append_assoc]
      rfl
termination_by structural members

end

end Json

/-- A value of integers, texts and the three constants, in lists and maps of any nesting. The keys of
a map are in order. -/
inductive Value.IsPlain : Value → Prop where
  | nil : IsPlain .nil
  | bool (b : Bool) : IsPlain (.bool b)
  | int (n : Int64) : IsPlain (.int n)
  | string (s : String) : IsPlain (.string s)
  | array {items : List Value} (plain : ∀ item ∈ items, IsPlain item) : IsPlain (.array items)
  | map {entries : List (String × Value)}
      (ordered : entries.Pairwise fun first second => first.1 < second.1)
      (plain : ∀ entry ∈ entries, IsPlain entry.2) : IsPlain (.map entries)

namespace Value

open Json Document

/-- The lexemes of a value's text. -/
def lexemes (value : Value) : List Lexeme :=
  value.toJson.lexemes

/-- The lexemes of an entry: a key, a colon and a value. -/
def entryLexemes (entry : String × Value) : List Lexeme :=
  ⟨"string", quote entry.1⟩ :: colon :: entry.2.lexemes

theorem lexemes_array (items : List Value) :
    (Value.array items).lexemes = leftBracket :: enclose rightBracket (items.map lexemes) := by
  have parts : itemLexemes (itemsToJson (fun token => .string token.text) items) =
      items.map lexemes := by
    induction items with
    | nil => rfl
    | cons item rest inductionHypothesis =>
        rw [itemsToJson, itemLexemes, inductionHypothesis]
        rfl
  rw [← parts]
  rfl

theorem lexemes_map (entries : List (String × Value)) :
    (Value.map entries).lexemes = leftBrace :: enclose rightBrace (entries.map entryLexemes) := by
  have parts : memberLexemes (entriesToJson (fun token => .string token.text) entries) =
      entries.map entryLexemes := by
    induction entries with
    | nil => rfl
    | cons entry rest inductionHypothesis =>
        obtain ⟨key, value⟩ := entry
        rw [entriesToJson, memberLexemes, inductionHypothesis]
        rfl
  rw [← parts]
  rfl

end Value

namespace Document

open Json Value

section Legibility

/-- Lexemes that stay legible before what can stand after a number. -/
def LegibleBefore (part : List Lexeme) : Prop :=
  ∀ rest : List Lexeme, Legible rest → (∀ next ∈ rest.head?, next ∈ closers) →
    Legible (part ++ rest)

theorem Legible.mark {name pattern : String} {c : Char} {rest : List Lexeme}
    (listed : (name, pattern, c) ∈ marks) (legible : Legible rest) :
    Legible (⟨name, String.ofList [c]⟩ :: rest) := by
  have noNumber : ∀ mark ∈ marks, mark.1 ≠ "number" := by decide
  exact .cons (.mark listed) (fun isNumber => absurd isNumber (noNumber _ listed)) legible

theorem Legible.closer {closing : Lexeme} {rest : List Lexeme} (member : closing ∈ closers)
    (legible : Legible rest) : Legible (closing :: rest) := by
  simp only [closers, List.mem_cons, List.not_mem_nil, or_false] at member
  rcases member with rfl | rfl | rfl
  · exact legible.mark (show ("comma", ",", ',') ∈ marks by decide)
  · exact legible.mark (show ("right_bracket", "\\]", ']') ∈ marks by decide)
  · exact legible.mark (show ("right_brace", "\\\x7d", '\x7d') ∈ marks by decide)

theorem legible_enclose {closing : Lexeme} (member : closing ∈ closers)
    {parts : List (List Lexeme)} (separate : ∀ part ∈ parts, LegibleBefore part)
    {rest : List Lexeme} (legible : Legible rest) : Legible (enclose closing parts ++ rest) := by
  have first {closer : Lexeme} {rest : List Lexeme} (isCloser : closer ∈ closers) :
      ∀ next ∈ (closer :: rest).head?, next ∈ closers := by
    intro next isHead
    rw [← Option.some.inj isHead]
    exact isCloser
  fun_induction enclose closing parts with
  | case1 => exact legible.closer member
  | case2 part =>
      rw [List.append_assoc]
      exact separate part List.mem_cons_self _ (legible.closer member) (first member)
  | case3 part next parts inductionHypothesis =>
      rw [List.append_assoc]
      have isComma : comma ∈ closers := by decide
      have others := inductionHypothesis fun other listed =>
        separate other (List.mem_cons_of_mem part listed)
      exact separate part List.mem_cons_self _ (others.closer isComma) (first isComma)

theorem legibleBefore_scalar {lexeme : Lexeme} (isLexeme : IsLexeme lexeme) :
    LegibleBefore [lexeme] :=
  fun _ legible apart => .cons isLexeme (fun _ => apart) legible

theorem legibleBefore_lexemes {value : Value} (plain : value.IsPlain) :
    LegibleBefore value.lexemes := by
  induction plain with
  | nil => exact legibleBefore_scalar (.keyword (by decide))
  | bool b => cases b <;> exact legibleBefore_scalar (.keyword (by decide))
  | int n => exact legibleBefore_scalar (.number n.toInt)
  | string s => exact legibleBefore_scalar (.string s)
  | @array items plain inductionHypothesis =>
      intro rest legible _
      have separate : ∀ part ∈ items.map Value.lexemes, LegibleBefore part :=
        List.forall_mem_map.mpr inductionHypothesis
      rw [lexemes_array, List.cons_append]
      exact (legible_enclose (by decide) separate legible).mark
        (show ("left_bracket", "\\[", '[') ∈ marks by decide)
  | @map entries ordered plain inductionHypothesis =>
      intro rest legible _
      have isColon : ("colon", ":", ':') ∈ marks := by decide
      have separate : ∀ part ∈ entries.map entryLexemes, LegibleBefore part := by
        refine List.forall_mem_map.mpr ?_
        intro entry member rest legible apart
        have isString (isNumber : "string" = "number") :
            ∀ next ∈ (colon :: (entry.2.lexemes ++ rest)).head?, next ∈ closers :=
          absurd isNumber (by decide)
        exact .cons (.string entry.1) isString
          ((inductionHypothesis entry member rest legible apart).mark isColon)
      rw [lexemes_map, List.cons_append]
      exact (legible_enclose (by decide) separate legible).mark
        (show ("left_brace", "\\\x7b", '\x7b') ∈ marks by decide)

theorem legible_lexemes {value : Value} (plain : value.IsPlain) : Legible value.lexemes := by
  have legible := legibleBefore_lexemes plain [] .nil fun next isHead => nomatch isHead
  rwa [List.append_nil] at legible

end Legibility

section Spelling

variable {tokens : List Token}

theorem exists_token {lexeme : Lexeme} (spelled : tokens.map Token.lexeme = [lexeme]) :
    ∃ token, tokens = [token] ∧ token.lexeme = lexeme := by
  obtain ⟨token, rest, rfl, same, ended⟩ := List.map_eq_cons_iff.mp spelled
  obtain rfl := List.map_eq_nil_iff.mp ended
  exact ⟨token, rfl, same⟩

theorem name_of_lexeme {token : Token} {kind text : String} (same : token.lexeme = ⟨kind, text⟩)
    (noKeyword : kind ≠ Token.keywordKind) : token.name = kind := by
  obtain ⟨rfl, _⟩ := Lexeme.mk.inj same
  exact if_neg noKeyword

theorem name_of_keyword {token : Token} {text : String}
    (same : token.lexeme = ⟨Token.keywordKind, text⟩) : token.name = text := by
  obtain ⟨kind, rfl⟩ := Lexeme.mk.inj same
  exact if_pos kind

theorem spells_keyword {text : String} {value : Value}
    (spelled : tokens.map Token.lexeme = [⟨Token.keywordKind, text⟩])
    (alone : ∀ {token : Token}, token.name = text → scalar? token = some value) :
    Spells value tokens := by
  obtain ⟨token, rfl, same⟩ := exists_token spelled
  exact spells_of_scalar (alone (name_of_keyword same))

theorem spells_int {n : Int64}
    (spelled : tokens.map Token.lexeme = [⟨"number", toString n.toInt⟩]) :
    Spells (.int n) tokens := by
  obtain ⟨token, rfl, same⟩ := exists_token spelled
  have named : token.name = "number" := name_of_lexeme same (by decide)
  have text : token.text = toString n.toInt := (Lexeme.mk.inj same).2
  have read : Value.ofNumberText token.text = .int n := by
    rw [Value.ofNumberText, text, Decimal.readInt64?_toString]
  have alone : scalar? token = some (Value.ofNumberText token.text) := by
    simp only [scalar?, named]
    rfl
  rw [read] at alone
  exact spells_of_scalar alone

theorem spells_string {s : String}
    (spelled : tokens.map Token.lexeme = [⟨"string", quote s⟩]) : Spells (.string s) tokens := by
  obtain ⟨token, rfl, same⟩ := exists_token spelled
  have named : token.name = "string" := name_of_lexeme same (by decide)
  have text : token.text = quote s := (Lexeme.mk.inj same).2
  refine spells_of_scalar ?_
  simp only [scalar?, named, text, unquote_quote]

/-- Tokens that stand for a non-empty list of parts are those of its first part, with a comma and the
other parts after them, or with the closing mark. -/
theorem exists_first_part {closing : Lexeme} {part : List Lexeme} {parts : List (List Lexeme)}
    (spelled : tokens.map Token.lexeme = enclose closing (part :: parts)) :
    ∃ covered token rest, tokens = covered ++ token :: rest ∧ covered.map Token.lexeme = part ∧
      (parts = [] ∧ token.lexeme = closing ∧ rest = [] ∨
        parts ≠ [] ∧ token.lexeme = comma ∧ rest.map Token.lexeme = enclose closing parts) := by
  cases parts with
  | nil =>
      obtain ⟨covered, others, rfl, first, last⟩ := List.map_eq_append_iff.mp spelled
      obtain ⟨token, rfl, same⟩ := exists_token last
      exact ⟨covered, token, [], rfl, first, .inl ⟨rfl, same, rfl⟩⟩
  | cons next parts =>
      obtain ⟨covered, others, rfl, first, further⟩ := List.map_eq_append_iff.mp spelled
      obtain ⟨token, rest, rfl, same, others⟩ := List.map_eq_cons_iff.mp further
      exact ⟨covered, token, rest, rfl, first, .inr ⟨List.cons_ne_nil next parts, same, others⟩⟩

theorem spellsItems_of_enclose {items : List Value} (some : items ≠ [])
    (spelling : ∀ item ∈ items, ∀ tokens : List Token,
      tokens.map Token.lexeme = item.lexemes → Spells item tokens)
    (spelled : tokens.map Token.lexeme = enclose rightBracket (items.map Value.lexemes)) :
    SpellsItems items tokens := by
  induction items generalizing tokens with
  | nil => exact absurd rfl some
  | cons item items inductionHypothesis =>
      obtain ⟨covered, token, rest, rfl, first, after⟩ := exists_first_part spelled
      have spells := spelling item List.mem_cons_self covered first
      refine spellsItems_iff.mpr ⟨item, covered, token :: rest, spells, ?_, rfl⟩
      rcases after with ⟨ended, closing, rfl⟩ | ⟨further, isComma, others⟩
      · obtain rfl := List.map_eq_nil_iff.mp ended
        exact .last (name_of_lexeme closing (by decide))
      · have others := inductionHypothesis (fun ended => further (by rw [ended]; rfl))
          (fun other member => spelling other (List.mem_cons_of_mem item member)) others
        exact .more (name_of_lexeme isComma (by decide)) others

theorem spellsEntries_of_enclose {before entries : List (String × Value)} (some : entries ≠ [])
    (ordered : (before ++ entries).Pairwise fun first second => first.1 < second.1)
    (spelling : ∀ entry ∈ entries, ∀ tokens : List Token,
      tokens.map Token.lexeme = entry.2.lexemes → Spells entry.2 tokens)
    (spelled : tokens.map Token.lexeme = enclose rightBrace (entries.map entryLexemes)) :
    SpellsEntries before (.map (before ++ entries)) tokens := by
  induction entries generalizing before tokens with
  | nil => exact absurd rfl some
  | cons entry entries inductionHypothesis =>
      obtain ⟨covered, token, rest, rfl, first, after⟩ := exists_first_part spelled
      obtain ⟨key, colonAndItem, rfl, isKey, first⟩ := List.map_eq_cons_iff.mp first
      obtain ⟨colonToken, covered, rfl, isColon, first⟩ := List.map_eq_cons_iff.mp first
      have spells := spelling entry List.mem_cons_self covered first
      have keyText : Literal.unquote key.text = entry.1 := by
        rw [(Lexeme.mk.inj isKey).2, unquote_quote]
      have inserted := insertEntry_of_ordered ordered
      have regrouped : before ++ entry :: entries = before ++ [entry] ++ entries := by simp
      refine spellsEntries_iff.mpr ⟨key, colonToken :: (covered ++ token :: rest),
        name_of_lexeme isKey (by decide), ?_, rfl⟩
      refine ⟨colonToken, covered ++ token :: rest, name_of_lexeme isColon (by decide), ?_, rfl⟩
      refine ⟨entry.2, covered, token :: rest, spells, ?_, rfl⟩
      rw [keyText, inserted]
      rcases after with ⟨ended, closing, rfl⟩ | ⟨further, isComma, others⟩
      · obtain rfl := List.map_eq_nil_iff.mp ended
        exact .last (name_of_lexeme closing (by decide))
      · rw [regrouped] at ordered ⊢
        have others := inductionHypothesis (fun ended => further (by rw [ended]; rfl)) ordered
          (fun other member => spelling other (List.mem_cons_of_mem entry member)) others
        exact .more (name_of_lexeme isComma (by decide)) others

/-- Tokens with the lexemes of a plain value spell it. -/
theorem spells_of_lexemes {value : Value} (plain : value.IsPlain) (tokens : List Token)
    (spelled : tokens.map Token.lexeme = value.lexemes) : Spells value tokens := by
  induction plain generalizing tokens with
  | nil => exact spells_keyword spelled fun named => by simp only [scalar?, named]
  | bool b =>
      cases b with
      | false =>
          have isFalse : tokens.map Token.lexeme = [⟨Token.keywordKind, "false"⟩] := spelled
          exact spells_keyword isFalse fun named => by simp only [scalar?, named]
      | true =>
          have isTrue : tokens.map Token.lexeme = [⟨Token.keywordKind, "true"⟩] := spelled
          exact spells_keyword isTrue fun named => by simp only [scalar?, named]
  | int n => exact spells_int spelled
  | string s => exact spells_string spelled
  | @array items plain inductionHypothesis =>
      rw [lexemes_array] at spelled
      obtain ⟨opening, rest, rfl, isOpening, inner⟩ := List.map_eq_cons_iff.mp spelled
      have named := name_of_lexeme isOpening (by decide)
      by_cases empty : items = []
      · subst empty
        obtain ⟨closing, rfl, isClosing⟩ := exists_token inner
        exact spells_of_shape (.emptyArray named (name_of_lexeme isClosing (by decide)))
      · exact spells_of_shape (.array named (spellsItems_of_enclose empty inductionHypothesis inner))
  | @map entries ordered plain inductionHypothesis =>
      rw [lexemes_map] at spelled
      obtain ⟨opening, rest, rfl, isOpening, inner⟩ := List.map_eq_cons_iff.mp spelled
      have named := name_of_lexeme isOpening (by decide)
      by_cases empty : entries = []
      · subst empty
        obtain ⟨closing, rfl, isClosing⟩ := exists_token inner
        exact spells_of_shape (.emptyObject named (name_of_lexeme isClosing (by decide)))
      · have spelledEntries : SpellsEntries [] (.map ([] ++ entries)) rest :=
          spellsEntries_of_enclose empty ordered inductionHypothesis inner
        exact spells_of_shape (.object named spelledEntries)

end Spelling

/-- Tokens spell one value at most. -/
theorem spells_unique {value other : Value} {tokens : List Token} (spells : Spells value tokens)
    (otherSpells : Spells other tokens) : other = value := by
  have descends := descends_descendTokens tokens
  generalize descendTokens tokens = result at descends
  cases descends with
  | accepted _ unique => rw [unique spells, unique otherSpells]
  | @refused diagnosis before after parts _ impossible =>
      have split : tokens = (before ++ [diagnosis.token]) ++ after := by
        rw [parts, List.append_assoc]
        rfl
      rw [split] at spells
      exact absurd (viable_of_spells spells) impossible
  | unfinished _ _ notDocument => exact absurd spells (notDocument value)

theorem parseTokens_of_spells {value : Value} {tokens : List Token} {limits : Limits}
    (spells : Spells value tokens) (fits : tokens.length < UInt32.size)
    (allowed : limits.Allow tokens.length) : parseTokens limits tokens = .ok value := by
  have outcome : declaration.Outcome tokens (parseTokens limits tokens) :=
    Declaration.outcome_of_build build_declaration (sizesFit_declaration fits)
      (Declaration.withinLimits_of_allow build_declaration allowed)
  obtain ⟨other, accepted⟩ := outcome.succeeds_iff.mpr (mem_language_iff.mpr ⟨value, spells⟩)
  rw [accepted] at outcome ⊢
  cases outcome with
  | @accepted _ tree derivation valued =>
      have otherSpells : Spells other tokens :=
        means_start_iff_spells.mp (Declaration.means_start_iff.mpr ⟨tree, derivation, valued⟩)
      rw [spells_unique spells otherSpells]

theorem parse_of_tokenize {limits : Limits} {text : String} {tokens : List Token}
    (tokenized : documentLexer.tokenize text = .ok tokens) :
    parse limits text = parseTokens limits tokens := by
  -- Unfolding by equations would build the grammar.
  delta parse parseTokens
  rw [lexer_eq]
  generalize grammar = built
  cases built with
  | error fault => rfl
  | ok grammar =>
      simp only [Grammar.parseSource, tokenized]
      rfl

/-- The text of a plain value is its lexemes one after the other. Any text with the same lexemes in
order, and blanks between them, is cut into these lexemes and parses back to the value. -/
theorem parse_spaced_value {value : Value} (plain : value.IsPlain) :
    textOf value.lexemes = value.toJson.compact ∧
      ∀ {text : String}, Spaced (value.lexemes.map Lexeme.text) text.toList →
        (∃ cutter tokens, lexer = .ok cutter ∧ cutter.tokenize text = .ok tokens ∧
          tokens.map Token.lexeme = value.lexemes) ∧
        ∀ {limits : Limits}, value.lexemes.length < UInt32.size →
          limits.Allow value.lexemes.length → parse limits text = .ok value := by
  refine ⟨textOf_lexemes value.toJson, ?_⟩
  intro text spaced
  have cuts := cuts_of_spaced (legible_lexemes plain) spaced
  obtain ⟨tokens, tokenized, same⟩ := cuts.tokenize
  refine ⟨⟨documentLexer, tokens, lexer_eq, tokenized, same⟩, ?_⟩
  intro limits fits allowed
  have length : tokens.length = value.lexemes.length := by
    rw [← same, List.length_map]
  rw [← length] at fits allowed
  rw [parse_of_tokenize tokenized]
  exact parseTokens_of_spells (spells_of_lexemes plain tokens same) fits allowed

/-- An object that holds an array of a negative number, a text with a line break and null. -/
def sampleValue : Value :=
  .map [("k", .array [.int (-1), .string "\n", .nil])]

theorem isPlain_sampleValue : sampleValue.IsPlain := by
  refine .map (List.pairwise_singleton _ _) ?_
  intro entry member
  obtain rfl := List.mem_singleton.mp member
  refine .array ?_
  intro item member
  simp only [List.mem_cons, List.not_mem_nil, or_false] at member
  rcases member with rfl | rfl | rfl
  · exact .int _
  · exact .string _
  · exact .nil

theorem spaced_sampleValue : Spaced (sampleValue.lexemes.map Lexeme.text)
    "\t\x7b\"k\" :[-1 ,\"\\n\",null]\r\n\x7d".toList := by
  have words : sampleValue.lexemes.map Lexeme.text =
      ["\x7b", "\"k\"", ":", "[", "-1", ",", "\"\\n\"", ",", "null", "]", "\x7d"] :=
    rfl
  have none : ∀ c ∈ ([] : List Char), c ∈ blanks := List.forall_mem_nil _
  have tab : ∀ c ∈ ['\t'], c ∈ blanks := forall_mem_of_all (by decide)
  have space : ∀ c ∈ [' '], c ∈ blanks := forall_mem_of_all (by decide)
  have line : ∀ c ∈ ['\r', '\n'], c ∈ blanks := forall_mem_of_all (by decide)
  rw [words]
  exact .next tab (.next none (.next space (.next none (.next none (.next space (.next none
    (.next none (.next none (.next none (.next line (.ends none)))))))))))

theorem parse_spaced_sampleValue :
    parse {} "\t\x7b\"k\" :[-1 ,\"\\n\",null]\r\n\x7d" = .ok sampleValue :=
  ((parse_spaced_value isPlain_sampleValue).2 spaced_sampleValue).2 (by decide)
    ⟨.inr (by decide), rfl⟩

end Document

end EarleyChart
