import EarleyChart.Proofs.Engines

/-!
Contract: how a lexer cuts a text.

Where only one rule has a pattern that the next character can start, that rule is chosen
(`bestMatch?_of_match?`). `Cuts` follows the chosen rules through a text; a text that is cut to its end has
the tokens that were cut (`Cuts.tokenize`).
-/

namespace EarleyChart

/-- What tells a token's kind and text, without its place. -/
structure Lexeme where
  kind : String
  text : String
deriving DecidableEq, Repr

/-- A token without its place. -/
def Token.lexeme (token : Token) : Lexeme :=
  ⟨token.kind, token.text⟩

namespace Lexer

variable {lexer : Lexer} {rule : LexerRule} {index : Nat} {taken rest text : List Char}

section Starting

variable {rules : List PatternRule}

/-- The rules whose patterns a character can start, with their places. -/
def startedBy (rules : List PatternRule) (c : Char) : List (PatternRule × Nat) :=
  rules.zipIdx.filter fun entry => entry.1.pattern.starts c

/-- The patterns of the rules match at the start of a text only, and not nothing. -/
def Steady (rules : List PatternRule) : Prop :=
  ∀ rule ∈ rules, rule.pattern.isAnchored = true ∧ rule.pattern.isNullable = false

theorem matchRule?_eq_none (steady : Steady rules) {rule : PatternRule} (member : rule ∈ rules)
    {c : Char} (barred : rule.pattern.starts c = false) (index : Nat) :
    matchRule? (c :: text) (rule.rule, index) = none := by
  obtain ⟨anchored, solid⟩ := steady rule member
  have unmatched : rule.rule.find? (c :: text) = none :=
    Pattern.match?_eq_none_of_barred anchored solid (Pattern.barred_of_head? rfl barred)
  rw [matchRule?, unmatched]

/-- The best match is found among the rules that the next character can start. -/
theorem bestMatch?_ofPatterns (steady : Steady rules) (c : Char) (text : List Char) :
    (ofPatterns rules).bestMatch? (c :: text) =
      bestOf ((startedBy rules c).map fun entry => (entry.1.rule, entry.2)) (c :: text) := by
  have places : (ofPatterns rules).rules.zipIdx =
      rules.zipIdx.map fun entry => (entry.1.rule, entry.2) :=
    List.zipIdx_map ..
  rw [bestMatch?_eq_bestOf (setAgrees_ofPatterns rules), places, bestOf, bestOf, startedBy,
    List.filterMap_map, List.filterMap_map, List.filterMap_filter]
  congr 1
  apply List.filterMap_congr
  rintro ⟨rule, index⟩ member
  have inRules : rule ∈ rules := List.fst_mem_of_mem_zipIdx member
  by_cases started : rule.pattern.starts c = true
  · rw [if_pos started]
  · rw [if_neg started]
    exact matchRule?_eq_none steady inRules (Bool.eq_false_iff.mpr started) index

/-- A rule that alone can start with the next character is chosen if it matches. -/
theorem bestMatch?_of_match? (steady : Steady rules) {rule : PatternRule} {c : Char}
    (only : startedBy rules c = [(rule, index)])
    (matched : rule.pattern.match? (c :: taken ++ rest) = some (Utf8.size (c :: taken))) :
    (ofPatterns rules).bestMatch? (c :: taken ++ rest) =
      some ⟨index, rule.rule, Utf8.size (c :: taken)⟩ := by
  have found : matchRule? (c :: taken ++ rest) (rule.rule, index) =
      some ⟨index, rule.rule, Utf8.size (c :: taken)⟩ :=
    matchRule?_eq_some_iff.mpr ⟨_, matched, Utf8.size_pos (List.cons_ne_nil c taken), rfl⟩
  rw [List.cons_append] at found ⊢
  rw [bestMatch?_ofPatterns steady, only, bestOf, List.map_cons, List.filterMap_cons, found]
  rfl

end Starting

/-- The lexer cuts a text to its end, and the lexemes are those of rules that are not passed over. -/
inductive Cuts (lexer : Lexer) : List Char → List Lexeme → Prop where
  | done : Cuts lexer [] []
  | passed {taken rest : List Char} {index : Nat} {rule : LexerRule} {lexemes : List Lexeme}
      (something : taken ≠ [])
      (chosen : lexer.bestMatch? (taken ++ rest) = some ⟨index, rule, Utf8.size taken⟩)
      (ignored : rule.definition.ignore = true) (others : Cuts lexer rest lexemes) :
      Cuts lexer (taken ++ rest) lexemes
  | kept {taken rest : List Char} {index : Nat} {rule : LexerRule} {lexemes : List Lexeme}
      (something : taken ≠ [])
      (chosen : lexer.bestMatch? (taken ++ rest) = some ⟨index, rule, Utf8.size taken⟩)
      (kept : rule.definition.ignore = false) (others : Cuts lexer rest lexemes) :
      Cuts lexer (taken ++ rest) (⟨rule.definition.name, String.ofList taken⟩ :: lexemes)

/-- The first step through a text. -/
theorem tokensFrom_append (something : taken ≠ [])
    (chosen : lexer.bestMatch? (taken ++ rest) = some ⟨index, rule, Utf8.size taken⟩) (bound : Nat)
    (position : Position) :
    lexer.tokensFrom (bound + 1) position (taken ++ rest) =
      let others := lexer.tokensFrom bound (position.advance taken) rest
      if rule.definition.ignore then others
      else .ok (tokenOf ⟨index, rule, Utf8.size taken⟩ position taken) :: others := by
  cases taken with
  | nil => exact absurd rfl something
  | cons c taken =>
      rw [List.cons_append] at chosen ⊢
      simp only [tokensFrom, chosen]
      rw [← List.cons_append, Utf8.take_size_append, Utf8.drop_size_append]

theorem Cuts.tokensFrom {lexemes : List Lexeme} (cuts : lexer.Cuts text lexemes) {bound : Nat}
    (enough : text.length ≤ bound) (position : Position) :
    ∃ tokens : List Token, lexer.tokensFrom bound position text = tokens.map .ok ∧
      tokens.map Token.lexeme = lexemes := by
  induction cuts generalizing bound position with
  | done => exact ⟨[], by cases bound <;> rfl, rfl⟩
  | @passed taken rest index rule lexemes something chosen ignored others inductionHypothesis =>
      have passes : 0 < taken.length := List.length_pos_iff.mpr something
      rw [List.length_append] at enough
      obtain ⟨bound, rfl⟩ := Nat.exists_eq_add_of_lt (show 0 < bound by omega)
      rw [Nat.zero_add, tokensFrom_append something chosen]
      simp only [ignored, ↓reduceIte]
      exact inductionHypothesis (by omega) _
  | @kept taken rest index rule lexemes something chosen kept others inductionHypothesis =>
      have passes : 0 < taken.length := List.length_pos_iff.mpr something
      rw [List.length_append] at enough
      obtain ⟨bound, rfl⟩ := Nat.exists_eq_add_of_lt (show 0 < bound by omega)
      have within : rest.length ≤ 0 + bound := by omega
      obtain ⟨tokens, cut, lexemes⟩ := inductionHypothesis within (position.advance taken)
      refine ⟨tokenOf ⟨index, rule, Utf8.size taken⟩ position taken :: tokens, ?_, ?_⟩
      · rw [tokensFrom_append something chosen]
        simp only [kept, Bool.false_eq_true, ↓reduceIte, cut, List.map_cons]
      · rw [List.map_cons, lexemes]
        rfl

section Found

variable {input : String} {tokens : List Token} {failure : Option ParseError}
  (found : lexer.tokens input = tokens.map .ok ++ failure.toList.map .error)

include found

theorem ok_mem_tokens_iff {token : Token} : .ok token ∈ lexer.tokens input ↔ token ∈ tokens := by
  simp [found]

theorem error_mem_tokens_iff {error : ParseError} :
    .error error ∈ lexer.tokens input ↔ failure = some error := by
  simp [found]

/-- All tokens are the ones found one after the other, unless there is an error at the end. -/
theorem tokenize_of_tokens : lexer.tokenize input = failure.elim (.ok tokens) .error := by
  have all : (tokens.map .ok).mapM id = (.ok tokens : Except ParseError (List Token)) := by
    rw [List.mapM_map]
    exact List.mapM_pure.trans (congrArg pure (List.map_id' tokens))
  rw [tokenize, found, List.mapM_append, all]
  cases failure with
  | none => exact congrArg Except.ok (List.append_nil tokens)
  | some error => rfl

end Found

/-- A text that is cut to its end is tokenized. -/
theorem Cuts.tokenize {input : String} {lexemes : List Lexeme}
    (cuts : lexer.Cuts input.toList lexemes) :
    ∃ tokens, lexer.tokenize input = .ok tokens ∧ tokens.map Token.lexeme = lexemes := by
  obtain ⟨tokens, cut, same⟩ := cuts.tokensFrom (Nat.le_refl _) Position.start
  refine ⟨tokens, ?_, same⟩
  have found : lexer.tokens input = tokens.map .ok ++ (none : Option ParseError).toList.map .error :=
    cut.trans (List.append_nil _).symm
  exact tokenize_of_tokens found

end Lexer

end EarleyChart
