import EarleyChart.Proofs.Runs

/-!
Contract: parses of a declaration's grammar against the declaration itself.

A parse that keeps within its limits succeeds exactly on the words of the language, and otherwise
stops at the first token that no derivation goes on with, where it names every terminal that a
derivation could have gone on with (`Outcome`). It keeps within them if they allow for all tokens and any
number of items, or if it just does not reach them (`WithinLimits`). The value of a parse, within limits or
not, is the value of a derivation tree.
-/

namespace EarleyChart

/-- The right-hand sides and the tokens are short enough to be counted in words of 32 bits. -/
structure Declaration.SizesFit (declaration : Declaration) (tokens : List Token) : Prop where
  rules : ∀ rule ∈ declaration.rules, rule.rhs.length < UInt32.size
  tokens : tokens.length < UInt32.size

/-- Limits that a parse of so many tokens does not reach. -/
structure Limits.Allow (limits : Limits) (length : Nat) : Prop where
  tokens : limits.maxTokens = 0 ∨ length ≤ limits.maxTokens
  items : limits.maxItems = 0

namespace Declaration

/-- Some form that is derived from the start symbol begins with the tokens. -/
def Viable (declaration : Declaration) (tokens : List Token) : Prop :=
  ∃ rest, declaration.Generates (spelling tokens ++ rest)

/-- A diagnosis names each terminal once that a derived form can have after the tokens consumed,
and no other. -/
structure ExpectsExactly (declaration : Declaration) (tokens : List Token) (diagnosis : Diagnosis) :
    Prop where
  nodup : diagnosis.expected.Nodup
  exact : ∀ name, name ∈ diagnosis.expected ↔
    ∃ rest, declaration.Generates
      (spelling (tokens.take diagnosis.column) ++ .terminal name :: rest)

/-- What a parse within its limits can end in. -/
inductive Outcome (declaration : Declaration) (tokens : List Token) :
    Except ParseError Value → Prop where
  | accepted {value : Value} {tree : Tree} (derivation : declaration.IsDerivation tree tokens)
      (valued : value = tree.value declaration.reducer?) : Outcome declaration tokens (.ok value)
  | refused {diagnosis : Diagnosis} (read : tokens[diagnosis.column]? = some diagnosis.token)
      (viable : declaration.Viable (tokens.take diagnosis.column))
      (impossible : ¬ declaration.Viable (tokens.take (diagnosis.column + 1)))
      (expects : declaration.ExpectsExactly tokens diagnosis) :
      Outcome declaration tokens (.error (.unexpectedToken diagnosis))
  | unfinished {diagnosis : Diagnosis}
      (sentinel : diagnosis.token = Token.endOfInput tokens.getLast?)
      (atEnd : diagnosis.column = tokens.length) (viable : declaration.Viable tokens)
      (notWord : tokens.map Token.name ∉ declaration.language)
      (expects : declaration.ExpectsExactly tokens diagnosis) :
      Outcome declaration tokens (.error (.unexpectedEnd diagnosis))

variable {declaration : Declaration} {grammar : Grammar} {limits : Limits} {tokens : List Token}
  {start : String} {chart : Chart} {consumed : Nat}

theorem Numbers.fits (numbers : declaration.Numbers grammar start)
    (sizes : declaration.SizesFit tokens) : Fits grammar tokens where
  dots := by
    intro id production found
    rcases numbers.lengths found with ⟨rule, member, sameLength⟩ | unit
    · rw [sameLength]
      exact sizes.rules rule member
    · rw [unit]
      decide
  origins := sizes.tokens

/-- An item of a column expects a terminal exactly if the terminal can follow the tokens up to
there. -/
theorem Numbers.awaits_iff (numbers : declaration.Numbers grammar start)
    (sizes : declaration.SizesFit tokens) (ready : Ready grammar tokens chart consumed) {column : Nat}
    (reached : column ≤ consumed) {name : String} :
    (∃ symbol, grammar.terminal? name = some symbol ∧ chart.Awaits grammar column symbol) ↔
      ∃ rest, declaration.Generates (spelling (tokens.take column) ++ .terminal name :: rest) := by
  obtain ⟨production, startFound⟩ := numbers.consistent.startProduction
  rw [exists_generates_iff, numbers.begins_iff startFound]
  constructor
  · intro expecting
    obtain ⟨symbol, spelled, awaits⟩ := expecting
    exact ⟨symbol, spelled, (ready.awaits_iff numbers.consistent (numbers.fits sizes) startFound
      reached).mp awaits⟩
  · intro expecting
    obtain ⟨symbol, spelled, begins⟩ := expecting
    exact ⟨symbol, spelled, (ready.awaits_iff numbers.consistent (numbers.fits sizes) startFound
      reached).mpr begins⟩

theorem spelling_take_succ {column : Nat} {token : Token} (read : tokens[column]? = some token)
    (rest : List (Symbol String String)) :
    spelling (tokens.take (column + 1)) ++ rest =
      spelling (tokens.take column) ++ .terminal token.name :: rest := by
  obtain ⟨inside, rfl⟩ := List.getElem?_eq_some_iff.mp read
  rw [← List.take_append_getElem inside, spelling_append]
  simp

/-- What was consumed can be gone on with. -/
theorem Numbers.viable_of_ready (numbers : declaration.Numbers grammar start)
    (sizes : declaration.SizesFit tokens) (ready : Ready grammar tokens chart consumed) :
    declaration.Viable (tokens.take consumed) := by
  cases consumed with
  | zero =>
      refine ⟨[.nonterminal (declaration.startName?.getD "")], ?_⟩
      exact ContextFreeGrammar.Derives.refl _
  | succ before =>
      have reached : before + 1 < chart.size := by
        rw [ready.size]
        exact Nat.lt_succ_self _
      obtain ⟨token, symbol, read, spelled, awaits⟩ := ready.coherent.awaits_of_size reached
      obtain ⟨rest, generates⟩ :=
        (numbers.awaits_iff sizes ready (Nat.le_succ before)).mp ⟨symbol, spelled, awaits⟩
      refine ⟨rest, ?_⟩
      rw [spelling_take_succ read]
      exact generates

/-- What is refused cannot be gone on with. -/
theorem Numbers.not_viable_of_refuses (numbers : declaration.Numbers grammar start)
    (sizes : declaration.SizesFit tokens) (ready : Ready grammar tokens chart consumed)
    {token : Token} (read : tokens[consumed]? = some token)
    (refuses : Engine.Refuses grammar chart consumed token) :
    ¬ declaration.Viable (tokens.take (consumed + 1)) := by
  intro viable
  obtain ⟨rest, generates⟩ := viable
  rw [spelling_take_succ read] at generates
  obtain ⟨symbol, spelled, place, item, inColumn, present, awaited⟩ :=
    (numbers.awaits_iff sizes ready (Nat.le_refl _)).mpr ⟨rest, generates⟩
  exact refuses inColumn present spelled awaited

/-- What can be gone on with after some tokens can be gone on with after fewer. -/
theorem viable_take_of_le {first second : Nat} (ordered : first ≤ second)
    (viable : declaration.Viable (tokens.take second)) :
    declaration.Viable (tokens.take first) := by
  obtain ⟨rest, generates⟩ := viable
  refine ⟨spelling ((tokens.take second).drop first) ++ rest, ?_⟩
  have parts : tokens.take first ++ (tokens.take second).drop first = tokens.take second := by
    have shorter : tokens.take first = (tokens.take second).take first := by
      rw [List.take_take, Nat.min_eq_left ordered]
    rw [shorter, List.take_append_drop]
  rw [← List.append_assoc, ← spelling_append, parts]
  exact generates

/-- A word of the language can be gone on with after any of its tokens. -/
theorem viable_of_mem_language (member : tokens.map Token.name ∈ declaration.language)
    (column : Nat) : declaration.Viable (tokens.take column) := by
  refine ⟨spelling (tokens.drop column), ?_⟩
  rw [← spelling_append, List.take_append_drop]
  obtain ⟨tree, derivation⟩ := exists_isDerivation_iff.mpr member
  exact derives_of_forest derivation

/-- After all tokens an accepted value is that of a derivation. -/
theorem Numbers.derivation_of_accepted? (numbers : declaration.Numbers grammar start)
    (sizes : declaration.SizesFit tokens) (ready : Ready grammar tokens chart tokens.length)
    {value : Value} (accepted : Engine.accepted? grammar chart = some value) :
    ∃ tree, declaration.IsDerivation tree tokens ∧ value = tree.value declaration.reducer? := by
  obtain ⟨production, startFound⟩ := numbers.consistent.startProduction
  obtain ⟨trees, forest, rfl⟩ := ready.forest_of_accepted? numbers.consistent (numbers.fits sizes)
    startFound accepted
  rw [List.take_length] at forest
  obtain ⟨tree, derivation, valued⟩ := numbers.derivation_of_forest startFound forest
  exact ⟨tree, derivation, valued.symm⟩

/-- After all tokens of a word a value is accepted. -/
theorem Numbers.accepted?_ne_none (numbers : declaration.Numbers grammar start)
    (sizes : declaration.SizesFit tokens) (ready : Ready grammar tokens chart tokens.length)
    (member : tokens.map Token.name ∈ declaration.language) :
    Engine.accepted? grammar chart ≠ none := by
  obtain ⟨production, startFound⟩ := numbers.consistent.startProduction
  obtain ⟨tree, derivation⟩ := exists_isDerivation_iff.mpr member
  obtain ⟨children, forest⟩ := numbers.forest_of_derivation startFound derivation
  rw [← List.take_length (l := tokens)] at forest
  have accepts := ready.isSome_accepted? numbers.consistent (numbers.fits sizes) startFound forest
  exact Option.isSome_iff_ne_none.mp accepts

theorem Numbers.expectsExactly (numbers : declaration.Numbers grammar start)
    (sizes : declaration.SizesFit tokens) (ready : Ready grammar tokens chart consumed)
    {token : Token} {diagnosis : Diagnosis}
    (explains : diagnosis.Explains grammar chart consumed token) :
    declaration.ExpectsExactly tokens diagnosis where
  nodup := explains.nodup
  exact name := by
    rw [explains.sameColumn, explains.expected]
    exact numbers.awaits_iff sizes ready (Nat.le_refl _)

/-- Limits that allow for the tokens do not cut the parse short. -/
theorem withinLimits_of_allow (built : declaration.build = .ok grammar)
    (allowed : limits.Allow tokens.length) : WithinLimits (grammar.run limits tokens).result := by
  obtain ⟨start, numbers⟩ := numbers_of_build built
  intro error failed
  rcases numbers.consistent.run_cases limits tokens with
    ⟨value, returned, _⟩ | ⟨same, stopped, stops⟩
  · rw [returned] at failed
    contradiction
  · obtain rfl := Except.error.inj (stopped.symm.trans failed)
    cases stops with
    | refused _ _ _ _ => rfl
    | unfinished _ _ _ => rfl
    | manyTokens _ limited full more =>
        rcases allowed.tokens with unlimited | enough
        · exact absurd unlimited limited
        · omega
    | manyItems _ limited => exact absurd allowed.items limited

/-- A parse that no limit cuts short ends in an outcome, whatever its limits are. -/
theorem outcome_of_build (built : declaration.build = .ok grammar)
    (sizes : declaration.SizesFit tokens)
    (within : WithinLimits (grammar.run limits tokens).result) :
    declaration.Outcome tokens (grammar.run limits tokens).result := by
  obtain ⟨start, numbers⟩ := numbers_of_build built
  rcases numbers.consistent.run_cases limits tokens with
    ⟨value, returned, ready, accepted⟩ | ⟨error, failed, stops⟩
  · rw [returned]
    obtain ⟨tree, derivation, valued⟩ := numbers.derivation_of_accepted? sizes ready accepted
    exact .accepted derivation valued
  · rw [failed]
    cases stops with
    | @refused consumed token diagnosis ready read refuses explains =>
        have expects := numbers.expectsExactly sizes ready explains
        have viable := numbers.viable_of_ready sizes ready
        have impossible := numbers.not_viable_of_refuses sizes ready read refuses
        obtain ⟨rfl, rfl, _, _⟩ := explains
        exact .refused read viable impossible expects
    | @unfinished diagnosis ready unaccepted explains =>
        have expects := numbers.expectsExactly sizes ready explains
        have viable := numbers.viable_of_ready sizes ready
        rw [List.take_length] at viable
        refine .unfinished explains.sameToken explains.sameColumn viable ?_ expects
        intro member
        exact numbers.accepted?_ne_none sizes ready member unaccepted
    | manyTokens _ _ _ _ => cases within _ failed
    | manyItems _ _ => cases within _ failed

theorem run_repeatsDiagnosis (built : declaration.build = .ok grammar) {error : ParseError}
    (failed : (grammar.run limits tokens).result = .error error) : error.RepeatsDiagnosis := by
  obtain ⟨start, numbers⟩ := numbers_of_build built
  exact numbers.consistent.run_repeatsDiagnosis failed

section Outcomes

variable {result : Except ParseError Value}

theorem Outcome.succeeds_iff (outcome : declaration.Outcome tokens result) :
    (∃ value, result = .ok value) ↔ tokens.map Token.name ∈ declaration.language := by
  cases outcome with
  | @accepted value tree derivation _ =>
      exact iff_of_true ⟨value, rfl⟩ (exists_isDerivation_iff.mp ⟨tree, derivation⟩)
  | refused _ _ impossible _ =>
      refine iff_of_false (by simp) ?_
      intro member
      exact impossible (viable_of_mem_language member _)
  | unfinished _ _ _ notWord _ => exact iff_of_false (by simp) notWord

/-- The only place to stop at a token is between what can be gone on with and what cannot. -/
theorem Outcome.refused_iff (outcome : declaration.Outcome tokens result) (column : Nat) :
    (∃ diagnosis, result = .error (.unexpectedToken diagnosis) ∧ diagnosis.column = column) ↔
      column < tokens.length ∧ declaration.Viable (tokens.take column) ∧
        ¬ declaration.Viable (tokens.take (column + 1)) := by
  cases outcome with
  | @accepted value tree derivation _ =>
      refine iff_of_false (by simp) ?_
      intro stops
      have member := exists_isDerivation_iff.mp ⟨tree, derivation⟩
      exact stops.2.2 (viable_of_mem_language member _)
  | @refused diagnosis read viable impossible _ =>
      constructor
      · intro stops
        obtain ⟨same, sameError, rfl⟩ := stops
        cases sameError
        exact ⟨(List.getElem?_eq_some_iff.mp read).1, viable, impossible⟩
      · intro stops
        obtain ⟨_, viableHere, impossibleNext⟩ := stops
        refine ⟨diagnosis, rfl, ?_⟩
        rcases Nat.lt_trichotomy diagnosis.column column with earlier | same | later
        · exact absurd (viable_take_of_le earlier viableHere) impossible
        · exact same
        · exact absurd (viable_take_of_le later viable) impossibleNext
  | @unfinished diagnosis _ _ viable _ _ =>
      refine iff_of_false (by simp) ?_
      intro stops
      rw [← List.take_length (l := tokens)] at viable
      exact stops.2.2 (viable_take_of_le stops.1 viable)

theorem Outcome.read {diagnosis : Diagnosis}
    (outcome : declaration.Outcome tokens (.error (.unexpectedToken diagnosis))) :
    tokens[diagnosis.column]? = some diagnosis.token := by
  cases outcome with
  | refused read _ _ _ => exact read

theorem Outcome.atEnd {diagnosis : Diagnosis}
    (outcome : declaration.Outcome tokens (.error (.unexpectedEnd diagnosis))) :
    diagnosis.column = tokens.length := by
  cases outcome with
  | unfinished _ atEnd _ _ _ => exact atEnd

theorem Outcome.expectsExactly (outcome : declaration.Outcome tokens result)
    {diagnosis : Diagnosis}
    (failed : result = .error (.unexpectedToken diagnosis) ∨
      result = .error (.unexpectedEnd diagnosis)) :
    declaration.ExpectsExactly tokens diagnosis := by
  cases outcome with
  | accepted _ _ => simp at failed
  | refused _ _ _ expects =>
      rcases failed with same | other
      · cases same
        exact expects
      · cases other
  | unfinished _ _ _ _ expects =>
      rcases failed with other | same
      · cases other
      · cases same
        exact expects

end Outcomes

section Sums

/-- Sums whose summands may be left out: ambiguous, recursive on both sides and nullable. -/
def sums : Declaration where
  terminals := ["number", "plus"]
  rules := [⟨"sum", ["sum", "plus", "sum"], none⟩, ⟨"sum", ["number"], none⟩, ⟨"sum", [], none⟩]

/-- The tokens of `1 +`. -/
def openSum : List Token :=
  [⟨"number", "1", 1, 1, 0⟩, ⟨"plus", "+", 1, 3, 2⟩]

/-- The tokens of `1 + 1 1`. -/
def brokenSum : List Token :=
  openSum ++ [⟨"number", "1", 1, 5, 4⟩, ⟨"number", "1", 1, 7, 6⟩]

theorem build_sums : sums.build = .ok (sums.grammar "sum") :=
  rfl

theorem sizesFit_sums {tokens : List Token} (fits : tokens.length < UInt32.size) :
    sums.SizesFit tokens :=
  ⟨by decide, fits⟩

theorem exists_run_openSum : ∃ value, ((sums.grammar "sum").run {} openSum).result = .ok value := by
  have succeeds : ((sums.grammar "sum").run {} openSum).result.toBool = true := by
    decide +kernel
  cases result : ((sums.grammar "sum").run {} openSum).result with
  | ok value => exact ⟨value, rfl⟩
  | error error =>
      rw [result] at succeeds
      contradiction

end Sums

/-- A parse succeeds exactly on the words of the language. -/
theorem run_succeeds_iff_mem_language (built : declaration.build = .ok grammar)
    (sizes : declaration.SizesFit tokens) (allowed : limits.Allow tokens.length) :
    (∃ value, (grammar.run limits tokens).result = .ok value) ↔
      tokens.map Token.name ∈ declaration.language :=
  (outcome_of_build built sizes (withinLimits_of_allow built allowed)).succeeds_iff

theorem openSum_mem_language : openSum.map Token.name ∈ sums.language := by
  have allowed : Limits.Allow {} openSum.length := ⟨.inr (by decide), rfl⟩
  have recognized := run_succeeds_iff_mem_language build_sums (sizesFit_sums (by decide)) allowed
  exact recognized.mp exists_run_openSum

/-- The value of a parse is the value of a derivation tree, and of the tree if there is only one. -/
theorem run_value_of_derivation (built : declaration.build = .ok grammar)
    (sizes : declaration.SizesFit tokens) {value : Value}
    (returned : (grammar.run limits tokens).result = .ok value) :
    (∃ tree, declaration.IsDerivation tree tokens ∧ value = tree.value declaration.reducer?) ∧
      ∀ tree, declaration.IsDerivation tree tokens →
        (∀ other, declaration.IsDerivation other tokens → other = tree) →
        value = tree.value declaration.reducer? := by
  obtain ⟨start, numbers⟩ := numbers_of_build built
  rcases numbers.consistent.run_cases limits tokens with
    ⟨same, sameReturned, ready, accepted⟩ | ⟨error, failed, _⟩
  · obtain rfl := Except.ok.inj (sameReturned.symm.trans returned)
    obtain ⟨tree, derivation, valued⟩ := numbers.derivation_of_accepted? sizes ready accepted
    refine ⟨⟨tree, derivation, valued⟩, ?_⟩
    intro only _ unique
    rw [← unique tree derivation]
    exact valued
  · rw [failed] at returned
    contradiction

theorem openSum_value_of_derivation :
    ∃ value tree, ((sums.grammar "sum").run {} openSum).result = .ok value ∧
      sums.IsDerivation tree openSum ∧ value = tree.value sums.reducer? := by
  obtain ⟨value, returned⟩ := exists_run_openSum
  obtain ⟨tree, derivation, valued⟩ :=
    (run_value_of_derivation build_sums (sizesFit_sums (by decide)) returned).1
  exact ⟨value, tree, returned, derivation, valued⟩

/-- A parse stops at the first token that no derived form goes on with, and its diagnosis expects
exactly the terminals that a derived form goes on with. -/
theorem run_stops_at_first_impossible_token (built : declaration.build = .ok grammar)
    (sizes : declaration.SizesFit tokens) (allowed : limits.Allow tokens.length) :
    (∀ column, (∃ diagnosis, (grammar.run limits tokens).result =
          .error (.unexpectedToken diagnosis) ∧ diagnosis.column = column) ↔
        column < tokens.length ∧ declaration.Viable (tokens.take column) ∧
          ¬ declaration.Viable (tokens.take (column + 1))) ∧
      (∀ diagnosis, (grammar.run limits tokens).result = .error (.unexpectedToken diagnosis) →
        tokens[diagnosis.column]? = some diagnosis.token) ∧
      (∀ diagnosis, (grammar.run limits tokens).result = .error (.unexpectedEnd diagnosis) →
        diagnosis.column = tokens.length) ∧
      ∀ diagnosis, ((grammar.run limits tokens).result = .error (.unexpectedToken diagnosis) ∨
          (grammar.run limits tokens).result = .error (.unexpectedEnd diagnosis)) →
        diagnosis.expected.Nodup ∧ ∀ name, name ∈ diagnosis.expected ↔
          ∃ rest, declaration.Generates
            (spelling (tokens.take diagnosis.column) ++ .terminal name :: rest) := by
  have outcome := outcome_of_build built sizes (withinLimits_of_allow built allowed)
  refine ⟨outcome.refused_iff, ?_, ?_, ?_⟩
  · intro diagnosis failed
    rw [failed] at outcome
    exact outcome.read
  · intro diagnosis failed
    rw [failed] at outcome
    exact outcome.atEnd
  · intro diagnosis failed
    have expects := outcome.expectsExactly failed
    exact ⟨expects.nodup, expects.exact⟩

theorem brokenSum_stops_at_last_token :
    sums.Viable (brokenSum.take 3) ∧ ¬ sums.Viable (brokenSum.take 4) := by
  have allowed : Limits.Allow { maxTraces := 1 } brokenSum.length := ⟨.inr (by decide), rfl⟩
  have stops := run_stops_at_first_impossible_token build_sums (sizesFit_sums (by decide)) allowed
  have failed : (match ((sums.grammar "sum").run { maxTraces := 1 } brokenSum).result with
      | .error (.unexpected diagnosis _ _) => diagnosis.column == 3
      | _ => false) = true := by
    decide +kernel
  split at failed
  next diagnosis token expected failure =>
    obtain ⟨rfl, rfl⟩ := run_repeatsDiagnosis build_sums failure
    exact ((stops.1 3).mp ⟨diagnosis, failure, by simpa using failed⟩).2
  next => contradiction

end Declaration

end EarleyChart
