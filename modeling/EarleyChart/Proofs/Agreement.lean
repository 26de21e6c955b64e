import EarleyChart.Proofs.Descent

/-!
Contract: the chart and the recursive descent agree on documents.

The descent accepts, refuses a token or misses one in the same terms as a parse by the chart: what
the tokens spell, what they can be gone on with and what they cannot. Since every symbol of the rules
is productive, what the chart calls viable is the beginning of a document, and the two outcomes
leave no room for a difference.
-/

namespace EarleyChart.Document

open Declaration

variable {tokens : List Token}

section Productivity

theorem productive_of_means {symbol : Symbol String String} {values : List Value}
    (means : declaration.Means [symbol] values tokens) : declaration.table.Productive symbol := by
  obtain ⟨trees, forest, _⟩ := means
  exact ⟨trees, tokens, forest⟩

theorem productive_terminal {name : String} (terminal : name ∈ terminals) :
    declaration.table.Productive (.terminal name) := by
  have known : ∀ name ∈ terminals, (Descent.sample name).name = name := by decide
  exact productive_of_means
    (means_terminal.mpr ⟨Descent.sample name, known name terminal, rfl, rfl⟩)

theorem productive_list {list close : String} {elements : List Value}
    (spells : SpellsList list close elements tokens) :
    declaration.table.Productive (.nonterminal list) := by
  obtain ⟨closing, means⟩ := spells
  obtain ⟨_, _, _, _, listed, _⟩ := means_cons_iff.mp means
  exact productive_of_means listed

theorem productive_nonterminal {name : String}
    (listed : name ∈ ["start", "expr", "array", "object", "boolean", "object_entry_list",
      "object_entry", "array_items"]) :
    declaration.table.Productive (.nonterminal name) := by
  obtain ⟨value, word, spells⟩ := Descent.starts_spells.inhabited
  simp only [List.mem_cons, List.not_mem_nil, or_false] at listed
  rcases listed with rfl | rfl | rfl | rfl | rfl | rfl | rfl | rfl
  · exact productive_of_means (means_start_iff_spells.mpr spells)
  · exact productive_of_means spells
  · exact productive_of_means ((arrayRules.means_iff itemRules).mpr
      ⟨Descent.sample "left_bracket", [], _, rfl, rfl, rfl,
        .inr ⟨rfl, Descent.sample "right_bracket", rfl, rfl⟩⟩)
  · exact productive_of_means ((objectRules.means_iff entryRules).mpr
      ⟨Descent.sample "left_brace", [], _, rfl, rfl, rfl,
        .inr ⟨rfl, Descent.sample "right_brace", rfl, rfl⟩⟩)
  · exact productive_of_means (means_nonterminal.mpr
      ⟨7, _, _, by decide, means_terminal.mpr ⟨Descent.sample "true", rfl, rfl, rfl⟩, rfl⟩)
  · obtain ⟨_, _, pairs, entries, _⟩ := (Descent.starts_entries []).inhabited
    exact productive_list entries
  · exact productive_of_means (means_entry_iff.mpr
      ⟨Descent.sample "string", Descent.sample "colon", value, word, rfl, rfl, spells, rfl, rfl⟩)
  · obtain ⟨items, _, spellsItems⟩ := Descent.starts_items.inhabited
    exact productive_list spellsItems

end Productivity

/-- Tokens that a derived form begins with are the beginning of a document. -/
theorem exists_spells_of_viable {token : Token}
    (viable : declaration.Viable (tokens ++ [token])) :
    ∃ value tail, Spells value (tokens ++ token :: tail) := by
  have covered : ∀ rule ∈ declaration.rules, ∀ name ∈ rule.rhs, name ∈ terminals ∨
      declaration.isTerminal name = false ∧ name ∈ ["start", "expr", "array", "object", "boolean",
        "object_entry_list", "object_entry", "array_items"] := by
    decide
  have productive : ∀ rule ∈ declaration.rules, ∀ name ∈ rule.rhs,
      declaration.table.Productive (declaration.symbol name) := by
    intro rule ruleMember name nameMember
    rcases covered rule ruleMember name nameMember with terminal | ⟨nonterminal, listed⟩
    · have isTerminal : declaration.isTerminal name = true := List.contains_iff_mem.mpr terminal
      rw [Declaration.symbol, if_pos isTerminal]
      exact productive_terminal terminal
    · rw [Declaration.symbol, if_neg (by simp [nonterminal])]
      exact productive_nonterminal listed
  have startProductive : declaration.table.Productive
      (.nonterminal (declaration.startName?.getD "")) :=
    productive_nonterminal (by decide)
  obtain ⟨value, tail, means⟩ := exists_word_of_viable productive startProductive viable
  exact ⟨value, tail, means_start_iff_spells.mp means⟩

theorem viable_of_spells {value : Value} {tail : List Token} (spells : Spells value (tokens ++ tail)) :
    declaration.Viable tokens :=
  viable_of_means (means_start_iff_spells.mpr spells)

/-- What the descent over tokens can end in. -/
inductive Descends (tokens : List Token) : Except ParseError Value → Prop where
  | accepted {value : Value} (spells : Spells value tokens)
      (unique : ∀ {other}, Spells other tokens → other = value) : Descends tokens (.ok value)
  | refused {diagnosis : Diagnosis} {before after : List Token}
      (parts : tokens = before ++ diagnosis.token :: after)
      (viable : declaration.Viable before)
      (impossible : ¬ declaration.Viable (before ++ [diagnosis.token])) :
      Descends tokens (.error (.unexpectedToken diagnosis))
  | unfinished {diagnosis : Diagnosis}
      (sentinel : diagnosis.token = Token.endOfInput tokens.getLast?)
      (viable : declaration.Viable tokens) (notDocument : ∀ value, ¬ Spells value tokens) :
      Descends tokens (.error (.unexpectedEnd diagnosis))

theorem descends_descendTokens (tokens : List Token) : Descends tokens (descendTokens tokens) := by
  have reads := (Descent.reads_within (2 * tokens.length + 2)).1
    (show 2 * (Descent.start tokens).rest.length + 1 ≤ _ by simp [Descent.start])
  unfold descendTokens
  generalize Descent.value (2 * tokens.length + 2) (Descent.start tokens) = result at reads ⊢
  cases reads with
  | @read value covered rest split spells unique =>
      change tokens = covered ++ rest at split
      cases rest with
      | nil =>
          rw [List.append_nil] at split
          subst split
          refine .accepted spells ?_
          intro other otherSpells
          have same : tokens ++ [] = tokens ++ [] := rfl
          exact (unique otherSpells same).1
      | cons extra after =>
          rw [← List.append_nil covered] at spells
          refine .refused split (viable_of_spells spells) ?_
          intro viable
          obtain ⟨other, tail, otherSpells⟩ := exists_spells_of_viable viable
          have same := (unique otherSpells (List.append_nil _)).2
          simp at same
  | @stuck before rest error split completes blocked named =>
      change tokens = before ++ rest at split
      obtain ⟨value, tail, spells⟩ := completes
      have viable : declaration.Viable before := viable_of_spells spells
      cases named with
      | @token diagnosis isNext =>
          obtain ⟨after, rfl⟩ := List.head?_eq_some_iff.mp isNext
          refine .refused split viable ?_
          intro viableNext
          obtain ⟨other, otherTail, otherSpells⟩ := exists_spells_of_viable viableNext
          have sameHead : (diagnosis.token :: otherTail).head? =
              (diagnosis.token :: after).head? := rfl
          exact blocked otherSpells sameHead (List.append_nil _)
      | ending atEnd sentinel =>
          change rest = [] at atEnd
          subst atEnd
          rw [List.append_nil] at split
          subst split
          refine .unfinished ?_ viable ?_
          · rw [sentinel]
            simp [Descent.past, Descent.start]
          · intro other otherSpells
            exact blocked otherSpells rfl rfl

/-- Two results are the same value, or errors of one kind at one token. -/
inductive Agree : Except ParseError Value → Except ParseError Value → Prop where
  | values {value : Value} : Agree (.ok value) (.ok value)
  | tokens {first second : Diagnosis} (same : first.token = second.token) :
      Agree (.error (.unexpectedToken first)) (.error (.unexpectedToken second))
  | ends {first second : Diagnosis} (same : first.token = second.token) :
      Agree (.error (.unexpectedEnd first)) (.error (.unexpectedEnd second))

theorem build_declaration : declaration.build = .ok (declaration.grammar "start") :=
  rfl

theorem sizesFit_declaration (fits : tokens.length < UInt32.size) : declaration.SizesFit tokens :=
  ⟨by decide, fits⟩

theorem mem_language_iff :
    tokens.map Token.name ∈ declaration.language ↔ ∃ value, Spells value tokens := by
  rw [← exists_isDerivation_iff]
  constructor
  · intro derived
    obtain ⟨tree, derivation⟩ := derived
    exact ⟨_, means_start_iff_spells.mp (means_start_iff.mpr ⟨tree, derivation, rfl⟩)⟩
  · intro spelled
    obtain ⟨value, spells⟩ := spelled
    obtain ⟨tree, derivation, _⟩ := means_start_iff.mp (means_start_iff_spells.mpr spells)
    exact ⟨tree, derivation⟩

theorem agree_of_outcomes {byChart byDescent : Except ParseError Value}
    (outcome : declaration.Outcome tokens byChart) (descends : Descends tokens byDescent) :
    Agree byChart byDescent := by
  cases descends with
  | @accepted value spells unique =>
      obtain ⟨other, rfl⟩ := outcome.succeeds_iff.mpr (mem_language_iff.mpr ⟨value, spells⟩)
      cases outcome with
      | @accepted _ tree derivation valued =>
          have otherSpells : Spells other tokens :=
            means_start_iff_spells.mp (means_start_iff.mpr ⟨tree, derivation, valued⟩)
          rw [unique otherSpells]
          exact .values
  | @refused diagnosis before after parts viable impossible =>
      have atBefore : tokens.take before.length = before := by
        rw [parts, List.take_left]
      have atToken : tokens.take (before.length + 1) = before ++ [diagnosis.token] := by
        rw [parts, List.take_length_add_append]
        rfl
      have inside : before.length < tokens.length := by
        rw [parts, List.length_append, List.length_cons]
        omega
      rw [← atBefore] at viable
      rw [← atToken] at impossible
      obtain ⟨chartDiagnosis, rfl, sameColumn⟩ :=
        (outcome.refused_iff before.length).mpr ⟨inside, viable, impossible⟩
      have read := outcome.read
      rw [sameColumn, parts, List.getElem?_append_right (Nat.le_refl _), Nat.sub_self] at read
      exact .tokens (Option.some.inj read).symm
  | @unfinished diagnosis sentinel viable notDocument =>
      cases outcome with
      | @accepted value tree derivation valued =>
          have spells : Spells value tokens :=
            means_start_iff_spells.mp (means_start_iff.mpr ⟨tree, derivation, valued⟩)
          exact absurd spells (notDocument value)
      | refused read _ impossible _ =>
          have inside := (List.getElem?_eq_some_iff.mp read).1
          rw [← List.take_length (l := tokens)] at viable
          exact absurd (viable_take_of_le inside viable) impossible
      | unfinished chartSentinel _ _ _ _ => exact .ends (chartSentinel.trans sentinel.symm)

/-- A parse by the chart that no limit cuts short agrees with the descent. -/
theorem agree_of_withinLimits {limits : Limits} (fits : tokens.length < UInt32.size)
    (within : WithinLimits (parseTokens limits tokens)) :
    Agree (parseTokens limits tokens) (descendTokens tokens) := by
  have outcome : declaration.Outcome tokens (parseTokens limits tokens) :=
    outcome_of_build build_declaration (sizesFit_declaration fits) within
  exact agree_of_outcomes outcome (descends_descendTokens tokens)

/-- On every list of tokens the chart and the descent give the same value or fail in the same way at
the same token. -/
theorem parseTokens_agrees_with_descendTokens {limits : Limits} (fits : tokens.length < UInt32.size)
    (allowed : limits.Allow tokens.length) :
    Agree (parseTokens limits tokens) (descendTokens tokens) :=
  agree_of_withinLimits fits (withinLimits_of_allow build_declaration allowed)

/-- The tokens of an array that ends after a comma. -/
def danglingComma : List Token :=
  [⟨"left_bracket", "[", 1, 1, 0⟩, ⟨Token.keywordKind, "null", 1, 2, 1⟩, ⟨"comma", ",", 1, 6, 5⟩,
   ⟨"right_bracket", "]", 1, 7, 6⟩]

theorem danglingComma_refused :
    ∃ diagnosis, parseTokens {} danglingComma = .error (.unexpectedToken diagnosis) ∧
      diagnosis.token = ⟨"right_bracket", "]", 1, 7, 6⟩ := by
  have allowed : Limits.Allow {} danglingComma.length := ⟨.inr (by decide), rfl⟩
  have agree := parseTokens_agrees_with_descendTokens (by decide) allowed
  have descended : descendTokens danglingComma = .error (.unexpectedToken
      ⟨⟨"right_bracket", "]", 1, 7, 6⟩, 4, Descent.valueStart, [], 0⟩) := by
    rfl
  rw [descended] at agree
  generalize parseTokens {} danglingComma = result at agree ⊢
  cases agree with
  | @tokens diagnosis _ same => exact ⟨diagnosis, rfl, same⟩

end EarleyChart.Document
