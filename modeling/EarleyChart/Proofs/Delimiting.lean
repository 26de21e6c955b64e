import EarleyChart.Proofs.Agreement
import EarleyChart.Proofs.LeftToRight
import EarleyChart.Proofs.Predictive

/-!
Contract: where documents end, and that each is read in one way.

The rules of documents are told apart by the next token (`predictive_declaration`), so no document is
the beginning of another one and no item of a chart has two derivations. For the parse this means
that a document cut short is missed at its end and that nothing is expected behind a whole one
(`parseTokens_delimits`), and that no derivation is ever dropped (`run_ambiguities_eq_zero`).

What a parse does at the end of some tokens, and at a token that cannot follow them, is told for any
grammar that is built. Limits are not looked at but where they can be reached.
-/

namespace EarleyChart

variable {grammar : Grammar} {limits : Limits} {tokens : List Token}

namespace Engine

variable {state : ParseState} {consumed : Nat}

/-- A token that no item waits for leaves everything as it is. -/
theorem ends_scan_refused {token : Token} (last : state.chart.size = consumed + 1)
    (refuses : Refuses grammar state.chart consumed token)
    {stopped : ParseError → ParseState → Prop} :
    Ends (scan grammar limits consumed token) state
      (fun moved next => moved = false ∧ next = state) stopped := by
  unfold scan
  cases spelled : grammar.terminal? token.name with
  | none => exact ⟨rfl, rfl⟩
  | some symbol =>
      dsimp only
      rw [ends_bind, ends_getChart, ends_bind]
      refine Ends.mono (ends_forM (· = state) (fun _ _ => True) ?_ rfl) ?_ (fun _ _ stops => stops)
      · intro source member
        obtain ⟨inColumn, item, present, awaited⟩ := mem_scanSources.mp member
        exact absurd awaited (refuses inColumn present spelled)
      · intro _ next still
        obtain ⟨rfl, _⟩ := still
        rw [ends_bind, ends_getChart, ends_pure, last]
        exact ⟨decide_eq_false (Nat.lt_irrefl _), rfl⟩

/-- A token that no item waits for stops the parse. -/
theorem ends_consume_refused {token : Token} (consistent : grammar.Consistent)
    (ready : Ready grammar tokens state.chart consumed)
    (room : limits.maxTokens = 0 ∨ consumed < limits.maxTokens)
    (refuses : Refuses grammar state.chart consumed token) :
    Ends (consume grammar limits consumed token) state (fun _ _ => False)
      (fun error _ => ∃ diagnosis, error = .unexpectedToken diagnosis ∧
        diagnosis.Explains grammar state.chart consumed token) := by
  have within : ¬ (limits.maxTokens ≠ 0 ∧ limits.maxTokens ≤ consumed) := by omega
  unfold consume
  rw [if_neg within, ends_bind, ends_getChart]
  dsimp only
  rw [ready.size_sub_one, ends_bind]
  refine (ends_scan_refused ready.size refuses).mono ?_ (fun _ _ stops => stops)
  intro moved next still
  obtain ⟨rfl, rfl⟩ := still
  rw [if_neg Bool.false_ne_true, ends_bind]
  refine (ends_diagnose consistent ready token).mono ?_ (fun _ _ stops => stops)
  intro diagnosis next diagnosed
  exact ⟨diagnosis, rfl, diagnosed.2⟩

/-- After tokens that are not accepted the parse stops at their end. -/
theorem ends_finish_unaccepted (consistent : grammar.Consistent)
    (ready : Ready grammar tokens state.chart consumed)
    (unaccepted : accepted? grammar state.chart = none) :
    Ends (finish grammar limits) state (fun _ _ => False)
      (fun error _ => ∃ diagnosis token, error = .unexpectedEnd diagnosis ∧
        diagnosis.Explains grammar state.chart consumed token) := by
  unfold finish
  rw [ends_bind, ends_getChart, unaccepted]
  dsimp only
  rw [ends_bind]
  refine (ends_diagnose consistent ready _).mono ?_ (fun _ _ stops => stops)
  intro diagnosis next reached
  exact ⟨diagnosis, _, rfl, reached.2⟩

/-- A parse that has got to the end of its tokens has closed all its columns. -/
theorem ready_of_begin (consistent : grammar.Consistent)
    (reached : begin grammar limits tokens ⟨Chart.seeded grammar.seed, 0⟩ = .ok () state) :
    Ready grammar tokens state.chart tokens.length := by
  have ends : Ends (begin grammar limits tokens) ⟨Chart.seeded grammar.seed, 0⟩
      (fun _ next => Ready grammar tokens next.chart tokens.length) (fun _ _ => True) := by
    unfold begin
    rw [ends_bind]
    refine (ends_closeColumn consistent (coherent_seeded grammar tokens)).mono ?_
      (fun _ _ _ => trivial)
    intro _ closed closing
    exact (ends_consumeAll consistent (ready_of_seeded closing.1 closing.2) rfl).mono
      (fun _ _ ready => ready) (fun _ _ _ => trivial)
  unfold Ends at ends
  rw [reached] at ends
  exact ends

/-- A parse that succeeds has got to the end of whatever its tokens begin with. -/
theorem exists_begin_of_accepted {first second : List Token} {value : Value}
    (accepted : (grammar.run limits (first ++ second)).result = .ok value) :
    ∃ reached, begin grammar limits first ⟨Chart.seeded grammar.seed, 0⟩ = .ok () reached := by
  cases outcome : begin grammar limits first ⟨Chart.seeded grammar.seed, 0⟩ with
  | ok _ reached => exact ⟨reached, rfl⟩
  | error error stopped =>
      rw [run_append_of_error outcome] at accepted
      cases accepted

end Engine

namespace Declaration

open Engine

variable {declaration : Declaration} {start : String} {state : ParseState} {first : List Token}

/-- A parse that gets to the end of tokens that are not a word tells what could follow. -/
theorem Numbers.run_of_unfinished (numbers : declaration.Numbers grammar start)
    (sizes : declaration.SizesFit tokens)
    (reached : begin grammar limits tokens ⟨Chart.seeded grammar.seed, 0⟩ = .ok () state)
    (notWord : tokens.map Token.name ∉ declaration.language) :
    ∃ diagnosis, (grammar.run limits tokens).result = .error (.unexpectedEnd diagnosis) ∧
      diagnosis.column = tokens.length ∧ declaration.ExpectsExactly tokens diagnosis := by
  have ready := ready_of_begin numbers.consistent reached
  have unaccepted : accepted? grammar state.chart = none := by
    refine Option.eq_none_iff_forall_ne_some.mpr ?_
    intro value accepted
    obtain ⟨tree, derivation, _⟩ := numbers.derivation_of_accepted? sizes ready accepted
    exact notWord (exists_isDerivation_iff.mp ⟨tree, derivation⟩)
  have ends : Ends (finish grammar limits) state _ _ :=
    ends_finish_unaccepted numbers.consistent ready unaccepted
  rw [run_of_ok reached]
  unfold Ends at ends
  split at ends
  next => exact ends.elim
  next error next outcome =>
    obtain ⟨diagnosis, token, rfl, explains⟩ := ends
    rw [outcome]
    exact ⟨diagnosis, rfl, explains.sameColumn, numbers.expectsExactly sizes ready explains⟩

/-- A parse that gets to the end of some tokens stops at one that cannot follow them, whatever comes
after it. -/
theorem Numbers.run_of_refused {extra : Token} (numbers : declaration.Numbers grammar start)
    (sizes : declaration.SizesFit tokens)
    (reached : begin grammar limits tokens ⟨Chart.seeded grammar.seed, 0⟩ = .ok () state)
    (room : limits.maxTokens = 0 ∨ tokens.length < limits.maxTokens)
    (impossible : ¬ declaration.Viable (tokens ++ [extra])) (rest : List Token) :
    ∃ diagnosis, (grammar.run limits (tokens ++ extra :: rest)).result =
        .error (.unexpectedToken diagnosis) ∧ diagnosis.token = extra ∧
      diagnosis.column = tokens.length ∧ declaration.ExpectsExactly tokens diagnosis := by
  have ready := ready_of_begin numbers.consistent reached
  have refuses : Refuses grammar state.chart tokens.length extra := by
    intro place item symbol inColumn present spelled awaited
    obtain ⟨after, generates⟩ := (numbers.awaits_iff sizes ready (Nat.le_refl _)).mp
      ⟨symbol, spelled, place, item, inColumn, present, awaited⟩
    rw [List.take_length] at generates
    refine impossible ⟨after, ?_⟩
    simpa using generates
  have ends : Ends (consume grammar limits tokens.length extra) state _ _ :=
    ends_consume_refused numbers.consistent ready room refuses
  rw [run_append_of_ok reached]
  unfold Ends at ends
  split at ends
  next => exact ends.elim
  next error next outcome =>
    obtain ⟨diagnosis, rfl, explains⟩ := ends
    simp only [consumeAll, Bind.bind, EStateM.bind, outcome]
    exact ⟨diagnosis, rfl, explains.sameToken, explains.sameColumn,
      numbers.expectsExactly sizes ready explains⟩

/-- The next token of a word is one that can follow. -/
theorem ExpectsExactly.mem_of_mem_language {diagnosis : Diagnosis} {next : Token}
    {after : List Token} (expects : declaration.ExpectsExactly first diagnosis)
    (atEnd : diagnosis.column = first.length)
    (member : (first ++ next :: after).map Token.name ∈ declaration.language) :
    next.name ∈ diagnosis.expected := by
  obtain ⟨tree, derivation⟩ := exists_isDerivation_iff.mpr member
  have generates : declaration.Generates (spelling (first ++ next :: after)) :=
    derives_of_forest derivation
  rw [expects.exact, atEnd, List.take_length]
  exact ⟨spelling after, by simpa using generates⟩

end Declaration

namespace Document

open Declaration

/-- The names of the tokens that a nonterminal of documents can begin with. -/
def firstNames : String → List String
  | "start" | "expr" | "array_items" => Descent.valueStart
  | "array" => ["left_bracket"]
  | "object" => ["left_brace"]
  | "boolean" => ["true", "false"]
  | "object_entry_list" | "object_entry" => ["string"]
  | _ => []

/-- The names of the tokens that a nonterminal of documents can go on with where it can end. -/
def furtherNames : String → List String
  | "array_items" | "object_entry_list" => ["comma"]
  | _ => []

/-- Where the symbols of documents begin and end. -/
def lookahead : Lookahead (Symbol String String) where
  first
    | .terminal name => [.terminal name]
    | .nonterminal name => (firstNames name).map .terminal
  further
    | .terminal _ => []
    | .nonterminal name => (furtherNames name).map .terminal

/-- The next token tells the rules of documents apart. -/
theorem predictive_declaration : declaration.table.Predictive lookahead := by
  refine predictive_of_rules (fun _ => List.mem_singleton_self _) ?_ ?_ ?_
  all_goals decide +kernel

/-- What tokens spell ends where it does, whatever comes after it. -/
theorem covered_unique {value other : Value} {covered word after rest : List Token}
    (spells : Spells value covered) (otherSpells : Spells other word)
    (same : covered ++ after = word ++ rest) : covered = word := by
  obtain ⟨trees, forest, _⟩ := spells
  obtain ⟨others, otherForest, _⟩ := otherSpells
  exact (predictive_declaration.single_unique rfl forest otherForest same).2

/-- No token can follow a document. -/
theorem not_viable_of_spells {value : Value} (spells : Spells value tokens) (extra : Token) :
    ¬ declaration.Viable (tokens ++ [extra]) := by
  intro viable
  obtain ⟨other, tail, otherSpells⟩ := exists_spells_of_viable viable
  have same : tokens = tokens ++ extra :: tail :=
    covered_unique spells otherSpells (List.append_nil _).symm
  simp at same

/-- A beginning of a document is not a document. -/
theorem not_mem_language_of_spells {value : Value} {before after : List Token} {next : Token}
    (spells : Spells value (before ++ next :: after)) :
    before.map Token.name ∉ declaration.language := by
  intro member
  obtain ⟨other, otherSpells⟩ := mem_language_iff.mp member
  have same : before = before ++ next :: after :=
    covered_unique otherSpells spells (List.append_nil _).symm
  simp at same

/-- After a document nothing is expected. -/
theorem expected_eq_nil_of_spells {value : Value} {diagnosis : Diagnosis}
    (spells : Spells value tokens) (expects : declaration.ExpectsExactly tokens diagnosis)
    (atEnd : diagnosis.column = tokens.length) : diagnosis.expected = [] := by
  refine List.eq_nil_iff_forall_not_mem.mpr ?_
  intro name listed
  obtain ⟨rest, generates⟩ := (expects.exact name).mp listed
  rw [atEnd, List.take_length] at generates
  let named : Token := ⟨Token.keywordKind, name, 1, 1, 0⟩
  have sameName : named.name = name := rfl
  refine not_viable_of_spells spells named ⟨rest, ?_⟩
  simpa [sameName] using generates

/-- Parses of documents are parses by the grammar that their rules are built to. -/
theorem parseTokens_eq (limits : Limits) (tokens : List Token) :
    parseTokens limits tokens = ((declaration.grammar "start").run limits tokens).result := by
  unfold parseTokens Document.grammar
  rw [build_declaration]
  rfl

theorem spells_of_parseTokens {value : Value} (fits : tokens.length < UInt32.size)
    (accepted : parseTokens limits tokens = .ok value) : Spells value tokens := by
  obtain ⟨start, numbers⟩ := numbers_of_build build_declaration
  rw [parseTokens_eq] at accepted
  rcases numbers.consistent.run_cases limits tokens with
    ⟨other, returned, ready, held⟩ | ⟨error, failed, _⟩
  · obtain rfl := Except.ok.inj (returned.symm.trans accepted)
    obtain ⟨tree, derivation, valued⟩ :=
      numbers.derivation_of_accepted? (sizesFit_declaration fits) ready held
    exact means_start_iff_spells.mp (means_start_iff.mpr ⟨tree, derivation, valued⟩)
  · cases failed.symm.trans accepted

/-- Documents are self-delimiting. A document that is cut short is missed at its end, where the token
that was cut off is among those expected, and any token behind a whole document is refused there,
where nothing is expected. -/
theorem parseTokens_delimits {value : Value} (fits : tokens.length < UInt32.size)
    (accepted : parseTokens limits tokens = .ok value) :
    (∀ before next after, tokens = before ++ next :: after →
        ∃ diagnosis, parseTokens limits before = .error (.unexpectedEnd diagnosis) ∧
          next.name ∈ diagnosis.expected) ∧
      (limits.maxTokens = 0 ∨ tokens.length < limits.maxTokens →
        ∀ extra rest, ∃ diagnosis,
          parseTokens limits (tokens ++ extra :: rest) = .error (.unexpectedToken diagnosis) ∧
            diagnosis.token = extra ∧ diagnosis.column = tokens.length ∧
            diagnosis.expected = []) := by
  obtain ⟨start, numbers⟩ := numbers_of_build build_declaration
  have spells := spells_of_parseTokens fits accepted
  simp only [parseTokens_eq] at accepted ⊢
  constructor
  · intro before next after parts
    subst parts
    rw [List.length_append] at fits
    obtain ⟨state, reached⟩ := Engine.exists_begin_of_accepted accepted
    obtain ⟨diagnosis, failed, atEnd, expects⟩ := numbers.run_of_unfinished
      (sizesFit_declaration (by omega)) reached (not_mem_language_of_spells spells)
    exact ⟨diagnosis, failed,
      expects.mem_of_mem_language atEnd (mem_language_iff.mpr ⟨value, spells⟩)⟩
  · intro room extra rest
    rw [← List.append_nil tokens] at accepted
    obtain ⟨state, reached⟩ := Engine.exists_begin_of_accepted accepted
    obtain ⟨diagnosis, failed, sameToken, sameColumn, expects⟩ := numbers.run_of_refused
      (sizesFit_declaration fits) reached room (not_viable_of_spells spells extra) rest
    exact ⟨diagnosis, failed, sameToken, sameColumn,
      expected_eq_nil_of_spells spells expects sameColumn⟩

/-- The tokens of `[null]`. -/
def nullArray : List Token :=
  [⟨"left_bracket", "[", 1, 1, 0⟩, ⟨Token.keywordKind, "null", 1, 2, 1⟩,
   ⟨"right_bracket", "]", 1, 6, 5⟩]

theorem nullArray_delimits :
    (∃ diagnosis, parseTokens {} (nullArray.take 2) = .error (.unexpectedEnd diagnosis) ∧
        "right_bracket" ∈ diagnosis.expected) ∧
      ∃ diagnosis, parseTokens {} (nullArray ++ nullArray) = .error (.unexpectedToken diagnosis) ∧
        diagnosis.token = ⟨"left_bracket", "[", 1, 1, 0⟩ ∧ diagnosis.column = 3 ∧
        diagnosis.expected = [] := by
  have succeeds : (parseTokens {} nullArray).toBool = true := by
    decide +kernel
  cases outcome : parseTokens {} nullArray with
  | error error =>
      rw [outcome] at succeeds
      contradiction
  | ok value =>
      obtain ⟨cutShort, goneOn⟩ := parseTokens_delimits (by decide) outcome
      exact ⟨cutShort _ ⟨"right_bracket", "]", 1, 6, 5⟩ [] rfl, goneOn (.inr (by decide)) _ _⟩

/-- A parse by the grammar of documents drops no derivation, be its tokens a document or not. -/
theorem run_ambiguities_eq_zero (fits : tokens.length < UInt32.size)
    (unlimited : limits.maxItems = 0) :
    ∃ documents, Document.grammar = .ok documents ∧
      (documents.run limits tokens).stats.ambiguities = 0 :=
  ⟨_, build_declaration, run_ambiguities_of_predictive build_declaration
    (sizesFit_declaration fits) unlimited predictive_declaration⟩

theorem danglingComma_ambiguities :
    ∃ documents, Document.grammar = .ok documents ∧
      (documents.run {} danglingComma).stats.ambiguities = 0 :=
  run_ambiguities_eq_zero (by decide) rfl

end Document

end EarleyChart
