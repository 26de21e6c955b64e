import EarleyChart.Pattern.Engine
import EarleyChart.Proofs.Matching
import EarleyChart.Proofs.Traversals

/-!
Contract: what lexers ask of the engine that compiles their patterns.

Two laws are enough for all that is proved of lexers: a rule ends its matches on character boundaries
of the text (`Lexer.EndsAtBoundaries`), and the set reports the rules that find a match and no others
(`Lexer.SetAgrees`). Both are hypotheses wherever the engine is not named. The lexers that
`Pattern.engine` compiles are those of `Lexer.ofPatterns` (`Lexer.ofDefinitions_engine_eq_ok_iff`), and they keep
both laws.
-/

namespace EarleyChart

/-- A token definition with its pattern read. -/
structure PatternRule where
  definition : TokenDefinition
  pattern : Pattern
deriving DecidableEq

/-- The rule that finds the matches of its pattern. -/
def PatternRule.rule (rule : PatternRule) : LexerRule :=
  ⟨rule.definition, rule.pattern.match?⟩

/-- A rule ends its matches on character boundaries within the text. -/
def LexerRule.EndsAtBoundaries (rule : LexerRule) : Prop :=
  ∀ (text : List Char) (length : Nat), rule.find? text = some length →
    ∃ taken, taken <+: text ∧ Utf8.size taken = length

namespace Lexer

/-- All rules of a lexer end their matches on character boundaries within the text. -/
def EndsAtBoundaries (lexer : Lexer) : Prop :=
  ∀ rule ∈ lexer.rules, rule.EndsAtBoundaries

/-- The set of a lexer reports a rule exactly if the rule finds a match. -/
def SetAgrees (lexer : Lexer) : Prop :=
  ∀ (index : Nat) (rule : LexerRule), lexer.rules[index]? = some rule →
    ∀ text, lexer.reports text index = true ↔ (rule.find? text).isSome = true

/-- The lexer of definitions with their patterns. -/
def ofPatterns (rules : List PatternRule) : Lexer :=
  ⟨rules.map PatternRule.rule, Pattern.reports (rules.map PatternRule.pattern)⟩

theorem endsAtBoundaries_ofPatterns (rules : List PatternRule) :
    (ofPatterns rules).EndsAtBoundaries := by
  intro rule member text length found
  obtain ⟨patternRule, _, rfl⟩ := List.mem_map.mp member
  exact Pattern.exists_taken_of_match? found

theorem setAgrees_ofPatterns (rules : List PatternRule) : (ofPatterns rules).SetAgrees := by
  intro index rule listed text
  have mapped : (rules.map PatternRule.rule)[index]? = some rule := listed
  rw [List.getElem?_map] at mapped
  obtain ⟨patternRule, here, rfl⟩ := Option.map_eq_some_iff.mp mapped
  simp [ofPatterns, Pattern.reports, here, PatternRule.rule]

section Choice

variable {lexer : Lexer} {text : List Char}

theorem matchRule?_eq_some_iff {entry : LexerRule × Nat} {found : LexerMatch} :
    matchRule? text entry = some found ↔
      ∃ length, entry.1.find? text = some length ∧ 0 < length ∧
        found = ⟨entry.2, entry.1, length⟩ := by
  unfold matchRule?
  cases entry.1.find? text with
  | none => simp
  | some length =>
      by_cases positive : 0 < length
      · simp [positive, eq_comm]
      · simp [positive]

theorem chooseBetter_eq_or (best : Option LexerMatch) (candidate : LexerMatch) :
    chooseBetter best candidate = best ∨ chooseBetter best candidate = some candidate := by
  unfold chooseBetter
  split
  · exact .inr rfl
  · split
    · exact .inr rfl
    · exact .inl rfl

/-- What is chosen from a list is in it, or was chosen before. -/
theorem mem_of_foldl_chooseBetter {candidates : List LexerMatch} {best : Option LexerMatch}
    {found : LexerMatch} (chosen : candidates.foldl chooseBetter best = some found) :
    best = some found ∨ found ∈ candidates := by
  induction candidates generalizing best with
  | nil => exact .inl chosen
  | cons candidate others inductionHypothesis =>
      rcases inductionHypothesis chosen with here | later
      · rcases chooseBetter_eq_or best candidate with same | same
        · exact .inl (same.symm.trans here)
        · obtain rfl := Option.some.inj (same.symm.trans here)
          exact .inr List.mem_cons_self
      · exact .inr (List.mem_cons_of_mem candidate later)

/-- A match that is chosen is the match of a listed rule. -/
theorem exists_entry_of_bestOf {entries : List (LexerRule × Nat)} {found : LexerMatch}
    (best : bestOf entries text = some found) :
    ∃ entry ∈ entries, matchRule? text entry = some found := by
  rcases mem_of_foldl_chooseBetter best with impossible | member
  · contradiction
  · exact List.mem_filterMap.mp member

/-- What a set leaves out has no match, so all rules can be tried instead of those it reports. -/
theorem bestMatch?_eq_bestOf (agrees : lexer.SetAgrees) (text : List Char) :
    lexer.bestMatch? text = bestOf lexer.rules.zipIdx text := by
  rw [bestMatch?, bestOf, reported, List.filterMap_filter, bestOf]
  congr 1
  apply List.filterMap_congr
  rintro ⟨rule, index⟩ member
  have reports := agrees index rule (List.mem_zipIdx_iff_getElem?.mp member) text
  by_cases reported : lexer.reports text index = true
  · rw [if_pos reported]
  · rw [if_neg reported]
    have unmatched : rule.find? text = none := by
      rw [reports, Bool.not_eq_true, Option.isSome_eq_false_iff] at reported
      exact Option.isNone_iff_eq_none.mp reported
    rw [matchRule?, unmatched]

end Choice

section Compiling

variable {definitions : List TokenDefinition} {parts : List Pattern.Part} {lexer : Lexer}

/-- Reads the pattern of a definition as a lexer writes it. -/
def readPattern (definition : TokenDefinition) : Except PatternFault Pattern.Part :=
  Pattern.read (anchored definition).toList

/-- Definitions with the patterns that have been read for them. -/
def withPatterns (definitions : List TokenDefinition) (parts : List Pattern.Part) :
    List PatternRule :=
  definitions.zipWith (fun definition part => ⟨definition, part.pattern⟩) parts

theorem compile_engine (definition : TokenDefinition) :
    compile Pattern.engine definition = match readPattern definition with
      | .ok part => .ok (PatternRule.rule ⟨definition, part.pattern⟩)
      | .error fault => .error (.invalidPattern definition.name fault.message) := by
  simp only [compile, Pattern.engine, Pattern.compile, readPattern]
  cases Pattern.read (anchored definition).toList <;> rfl

/-- Definitions whose patterns are read one for one have rules with these patterns. -/
theorem forall₂_compile_engine
    (read : List.Forall₂ (fun definition part => readPattern definition = .ok part)
      definitions parts) :
    List.Forall₂ (fun definition rule => compile Pattern.engine definition = .ok rule)
        definitions ((withPatterns definitions parts).map PatternRule.rule) ∧
      (withPatterns definitions parts).map PatternRule.pattern = parts.map Pattern.Part.pattern := by
  induction read with
  | nil => exact ⟨.nil, rfl⟩
  | @cons definition part _ _ readFirst _ inductionHypothesis =>
      obtain ⟨compiled, patterns⟩ := inductionHypothesis
      refine ⟨.cons ?_ compiled, congrArg (part.pattern :: ·) patterns⟩
      rw [compile_engine, readFirst]

/-- Definitions that are compiled have patterns that can be read. -/
theorem exists_parts_of_mapM_compile {rules : List LexerRule}
    (compiled : definitions.mapM (compile Pattern.engine) = .ok rules) :
    ∃ parts, definitions.mapM readPattern = .ok parts := by
  rw [Traversal.exists_mapM_eq_ok_iff]
  intro definition member
  obtain ⟨rule, isRule⟩ := Traversal.exists_mapM_eq_ok_iff.mp ⟨rules, compiled⟩ definition member
  rw [compile_engine] at isRule
  cases read : readPattern definition with
  | ok part => exact ⟨part, rfl⟩
  | error fault =>
      rw [read] at isRule
      contradiction

theorem compileSet_engine (read : definitions.mapM readPattern = .ok parts) :
    compileSet Pattern.engine definitions =
      if Pattern.maxSize < Pattern.Part.totalSize parts then
        .error (.invalidPatterns PatternFault.tooLarge.message)
      else .ok (Pattern.reports (parts.map Pattern.Part.pattern)) := by
  have readSet : ((definitions.map anchored).mapM fun text => Pattern.read text.toList) =
      .ok parts :=
    List.mapM_map.trans read
  simp only [compileSet, Pattern.engine, Pattern.compileSet, readSet]
  by_cases large : Pattern.maxSize < Pattern.Part.totalSize parts
  · simp only [if_pos large]
  · simp only [if_neg large]

/-- The lexers that the engine compiles are those of definitions whose patterns can be read and are not
too large together. -/
theorem ofDefinitions_engine_eq_ok_iff :
    ofDefinitions Pattern.engine definitions = .ok lexer ↔
      definitions ≠ [] ∧ ∃ parts, definitions.mapM readPattern = .ok parts ∧
        Pattern.Part.totalSize parts ≤ Pattern.maxSize ∧
        lexer = ofPatterns (withPatterns definitions parts) := by
  constructor
  · intro built
    unfold ofDefinitions at built
    split at built
    next => contradiction
    next some =>
      have notEmpty : definitions ≠ [] := fun empty => some (empty ▸ rfl)
      cases compiled : definitions.mapM (compile Pattern.engine) with
      | error fault =>
          rw [compiled] at built
          contradiction
      | ok rules =>
          obtain ⟨parts, read⟩ := exists_parts_of_mapM_compile compiled
          obtain ⟨compiledRules, patterns⟩ :=
            forall₂_compile_engine (Traversal.mapM_eq_ok_iff.mp read)
          rw [Traversal.mapM_eq_ok_iff.mpr compiledRules, compileSet_engine read] at built
          refine ⟨notEmpty, parts, read, ?_⟩
          by_cases large : Pattern.maxSize < Pattern.Part.totalSize parts
          · rw [if_pos large] at built
            contradiction
          · rw [if_neg large] at built
            refine ⟨Nat.le_of_not_lt large, ?_⟩
            rw [← Except.ok.inj built, ofPatterns, patterns]
  · rintro ⟨notEmpty, parts, read, small, rfl⟩
    obtain ⟨compiled, patterns⟩ := forall₂_compile_engine (Traversal.mapM_eq_ok_iff.mp read)
    have some : definitions.isEmpty = false := List.isEmpty_eq_false_iff.mpr notEmpty
    rw [ofDefinitions, some, Traversal.mapM_eq_ok_iff.mpr compiled, compileSet_engine read, if_neg (Nat.not_lt.mpr small),
      ofPatterns, patterns]
    rfl

/-- The lexers of the program keep both laws. -/
theorem laws_of_ofDefinitions (built : ofDefinitions Pattern.engine definitions = .ok lexer) :
    lexer.EndsAtBoundaries ∧ lexer.SetAgrees := by
  obtain ⟨_, parts, _, _, rfl⟩ := ofDefinitions_engine_eq_ok_iff.mp built
  exact ⟨endsAtBoundaries_ofPatterns _, setAgrees_ofPatterns _⟩

end Compiling

end Lexer

end EarleyChart
