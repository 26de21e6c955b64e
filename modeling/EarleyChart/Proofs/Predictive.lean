import EarleyChart.Proofs.Ambiguity

/-!
Contract: rules that the next token tells apart.

Two rules of one symbol may begin alike. Where they part, no terminal begins both ways to go on, and
where one of them ends before the other, the symbol is never followed by what the other one goes on
with. `Lookahead` names these terminals and `RuleTable.Predictive` is the condition, which the rules of a
table can be checked for one pair at a time.

`Predictive.forest_unique` is what follows: the tokens from a place on leave one way to derive a symbol
from there and one place where it ends, as long as what comes after it does not go on with it. So a
parse by such rules never meets an item in two ways, whatever its tokens are
(`Declaration.run_ambiguities_of_predictive`).
-/

namespace EarleyChart

/-- The terminals that tell where symbols begin and end. -/
structure Lookahead (σ : Type) where
  /-- The terminals that a symbol can begin with. -/
  first : σ → List σ
  /-- The terminals that a symbol can go on with in places where it can also end. -/
  further : σ → List σ

namespace Lookahead

variable {σ : Type} {ahead : Lookahead σ} {limit form other : List σ} {symbol : σ}

/-- A form after a symbol does not begin with what the symbol can go on with. Where the form is empty
that is up to what comes after it, which does not begin with a terminal of `limit`. -/
def Separates (ahead : Lookahead σ) (limit : List σ) (symbol : σ) : List σ → Prop
  | [] => ∀ terminal ∈ ahead.further symbol, terminal ∈ limit
  | next :: _ => ∀ terminal ∈ ahead.further symbol, terminal ∉ ahead.first next

variable [DecidableEq σ]

instance (ahead : Lookahead σ) (limit : List σ) (symbol : σ) (form : List σ) :
    Decidable (ahead.Separates limit symbol form) := by
  unfold Separates
  cases form <;> infer_instance

/-- The next token tells two forms apart where they differ. If one is the beginning of the other, it
is not followed by what the other goes on with, which is in `limit`. -/
def TellsApart (ahead : Lookahead σ) (limit : List σ) : List σ → List σ → Prop
  | [], [] => True
  | [], symbol :: _ => ∀ terminal ∈ ahead.first symbol, terminal ∈ limit
  | symbol :: _, [] => ∀ terminal ∈ ahead.first symbol, terminal ∈ limit
  | symbol :: form, next :: other =>
      if symbol = next then
        ahead.Separates limit symbol form ∧ ahead.Separates limit symbol other ∧
          TellsApart ahead limit form other
      else ∀ terminal ∈ ahead.first symbol, terminal ∉ ahead.first next

def decidableTellsApart (ahead : Lookahead σ) (limit : List σ) :
    (form other : List σ) → Decidable (ahead.TellsApart limit form other)
  | [], [] => isTrue trivial
  | [], symbol :: _ =>
      inferInstanceAs (Decidable (∀ terminal ∈ ahead.first symbol, terminal ∈ limit))
  | symbol :: _, [] =>
      inferInstanceAs (Decidable (∀ terminal ∈ ahead.first symbol, terminal ∈ limit))
  | symbol :: form, next :: other =>
      have := decidableTellsApart ahead limit form other
      inferInstanceAs (Decidable (if symbol = next then
        ahead.Separates limit symbol form ∧ ahead.Separates limit symbol other ∧
          TellsApart ahead limit form other
        else ∀ terminal ∈ ahead.first symbol, terminal ∉ ahead.first next))

instance (ahead : Lookahead σ) (limit form other : List σ) :
    Decidable (ahead.TellsApart limit form other) :=
  decidableTellsApart ahead limit form other

theorem tellsApart_cons_self :
    ahead.TellsApart limit (symbol :: form) (symbol :: other) ↔
      ahead.Separates limit symbol form ∧ ahead.Separates limit symbol other ∧
        ahead.TellsApart limit form other := by
  rw [TellsApart, if_pos rfl]

theorem tellsApart_cons_of_ne {next : σ} (different : symbol ≠ next) :
    ahead.TellsApart limit (symbol :: form) (next :: other) ↔
      ∀ terminal ∈ ahead.first symbol, terminal ∉ ahead.first next := by
  rw [TellsApart, if_neg different]

/-- There is nothing to tell about one symbol, apart from what may come after it. -/
theorem tellsApart_single (ahead : Lookahead σ) (symbol : σ) :
    ahead.TellsApart (ahead.further symbol) [symbol] [symbol] := by
  rw [tellsApart_cons_self]
  simp [Separates, TellsApart]

/-- What is told of a form is told of its beginnings. -/
theorem TellsApart.take (apart : ahead.TellsApart limit form form) (count : Nat) :
    ∃ shorter, ahead.TellsApart shorter (form.take count) (form.take count) := by
  induction form generalizing count with
  | nil => exact ⟨[], by simp [TellsApart]⟩
  | cons symbol form inductionHypothesis =>
      cases count with
      | zero => exact ⟨[], trivial⟩
      | succ count =>
          obtain ⟨separates, _, others⟩ := tellsApart_cons_self.mp apart
          obtain ⟨shorter, further⟩ := inductionHypothesis others count
          rw [List.take_succ_cons]
          cases form with
          | nil => exact ⟨_, List.take_nil ▸ ahead.tellsApart_single symbol⟩
          | cons next form =>
              cases count with
              | zero => exact ⟨_, ahead.tellsApart_single symbol⟩
              | succ count =>
                  exact ⟨shorter, tellsApart_cons_self.mpr ⟨separates, separates, further⟩⟩

end Lookahead

namespace RuleTable

variable {σ : Type}

/-- Tokens do not begin with a terminal of `limit`. -/
def Avoids (table : RuleTable σ) (limit : List σ) (tokens : List Token) : Prop :=
  ∀ token symbol, tokens.head? = some token → table.spell? token = some symbol → symbol ∉ limit

theorem avoids_nil (table : RuleTable σ) (limit : List σ) : table.Avoids limit [] := by
  intro token symbol isHead
  cases isHead

theorem avoids_of_nil (table : RuleTable σ) (tokens : List Token) : table.Avoids [] tokens := by
  intro token symbol _ _
  exact List.not_mem_nil

variable [DecidableEq σ]

/-- The rules of a table are told apart by the next token. -/
structure Predictive (table : RuleTable σ) (ahead : Lookahead σ) : Prop where
  /-- What tokens spell begins with itself and is not rewritten. -/
  spelled : ∀ {token symbol}, table.spell? token = some symbol →
    symbol ∈ ahead.first symbol ∧ ∀ id rhs, table.rule? id ≠ some (symbol, rhs)
  /-- No rule is empty, and a symbol can begin with whatever one of its rules begins with. -/
  begins : ∀ {id lhs rhs}, table.rule? id = some (lhs, rhs) →
    ∃ symbol rest, rhs = symbol :: rest ∧
      ∀ terminal ∈ ahead.first symbol, terminal ∈ ahead.first lhs
  apart : ∀ {id other lhs rhs otherRhs}, table.rule? id = some (lhs, rhs) →
    table.rule? other = some (lhs, otherRhs) →
    ahead.TellsApart (ahead.further lhs) rhs otherRhs
  /-- No rule is there twice. -/
  distinct : ∀ {id other rule}, table.rule? id = some rule → table.rule? other = some rule →
    id = other

variable {table : RuleTable σ} {ahead : Lookahead σ}

namespace Predictive

variable {form other limit : List σ} {symbol : σ} {trees others : List Tree}
  {tokens covered after rest : List Token}

/-- What a symbol derives begins with one of its first terminals. -/
theorem exists_first (predictive : table.Predictive ahead)
    (forest : table.Forest (symbol :: form) trees tokens) :
    ∃ token terminal more, tokens = token :: more ∧ table.spell? token = some terminal ∧
      terminal ∈ ahead.first symbol := by
  generalize whole : symbol :: form = symbols at forest
  induction forest generalizing symbol form with
  | nil => cases whole
  | leaf spelled _ _ =>
      obtain ⟨rfl, rfl⟩ := List.cons.inj whole
      exact ⟨_, _, _, rfl, spelled, (predictive.spelled spelled).1⟩
  | node rule _ _ innerHypothesis _ =>
      obtain ⟨rfl, rfl⟩ := List.cons.inj whole
      obtain ⟨inner, innerRest, rfl, included⟩ := predictive.begins rule
      obtain ⟨token, terminal, more, rfl, spelled, listed⟩ := innerHypothesis rfl
      exact ⟨token, terminal, more ++ _, rfl, spelled, included terminal listed⟩

/-- What comes after a form does not go on with it if it avoids the limit. -/
theorem avoids_of_separates (predictive : table.Predictive ahead)
    (separates : ahead.Separates limit symbol form) (forest : table.Forest form trees tokens)
    (avoids : table.Avoids limit after) :
    table.Avoids (ahead.further symbol) (tokens ++ after) := by
  intro token terminal isHead spelled listed
  cases form with
  | nil =>
      cases forest
      exact avoids token terminal isHead spelled (separates terminal listed)
  | cons next form =>
      obtain ⟨head, first, more, rfl, headSpelled, headListed⟩ := predictive.exists_first forest
      obtain rfl := Option.some.inj isHead
      obtain rfl := Option.some.inj (headSpelled.symm.trans spelled)
      exact separates _ listed headListed

/-- The tokens of a form are not what comes after the end of another one. -/
theorem not_avoids_of_first (predictive : table.Predictive ahead)
    (beyond : ∀ terminal ∈ ahead.first symbol, terminal ∈ limit)
    (forest : table.Forest (symbol :: form) trees tokens) :
    ¬ table.Avoids limit (tokens ++ after) := by
  intro avoids
  obtain ⟨token, terminal, more, rfl, spelled, listed⟩ := predictive.exists_first forest
  exact avoids token terminal rfl spelled (beyond terminal listed)

/-- Forms that are told apart begin alike where they derive the same tokens. -/
theorem exists_tail (predictive : table.Predictive ahead)
    (apart : ahead.TellsApart limit (symbol :: form) other)
    (forest : table.Forest (symbol :: form) trees tokens)
    (otherForest : table.Forest other others covered) (same : tokens ++ after = covered ++ rest)
    (otherAvoids : table.Avoids limit rest) : ∃ tail, other = symbol :: tail := by
  cases other with
  | nil =>
      cases otherForest
      rw [List.nil_append] at same
      subst same
      exact absurd otherAvoids (predictive.not_avoids_of_first apart forest)
  | cons next tail =>
      by_cases sameSymbol : symbol = next
      · exact ⟨tail, by rw [sameSymbol]⟩
      · have different := (Lookahead.tellsApart_cons_of_ne sameSymbol).mp apart
        obtain ⟨token, terminal, more, rfl, spelled, listed⟩ := predictive.exists_first forest
        obtain ⟨otherToken, otherTerminal, otherMore, rfl, otherSpelled, otherListed⟩ :=
          predictive.exists_first otherForest
        obtain ⟨rfl, _⟩ := List.cons.inj same
        obtain rfl := Option.some.inj (spelled.symm.trans otherSpelled)
        exact absurd otherListed (different terminal listed)

/-- Where the next token tells two forms apart, tokens are derived from one of them only, by one
forest, which ends in one place. -/
theorem forest_unique (predictive : table.Predictive ahead)
    (apart : ahead.TellsApart limit form other) (forest : table.Forest form trees tokens)
    (otherForest : table.Forest other others covered) (same : tokens ++ after = covered ++ rest)
    (avoids : table.Avoids limit after) (otherAvoids : table.Avoids limit rest) :
    form = other ∧ trees = others ∧ tokens = covered := by
  induction forest generalizing limit other others covered after rest with
  | nil =>
      cases other with
      | nil =>
          cases otherForest
          exact ⟨rfl, rfl, rfl⟩
      | cons next other =>
          -- The other form goes on with what comes after this one.
          rw [List.nil_append] at same
          subst same
          exact absurd avoids (predictive.not_avoids_of_first apart otherForest)
  | leaf spelled remaining inductionHypothesis =>
      obtain ⟨tail, rfl⟩ :=
        predictive.exists_tail apart (.leaf spelled remaining) otherForest same otherAvoids
      obtain ⟨_, _, further⟩ := Lookahead.tellsApart_cons_self.mp apart
      cases otherForest with
      | leaf _ otherRemaining =>
          obtain ⟨rfl, sameRest⟩ := List.cons.inj same
          obtain ⟨rfl, rfl, rfl⟩ :=
            inductionHypothesis further otherRemaining sameRest avoids otherAvoids
          exact ⟨rfl, rfl, rfl⟩
      | node rule _ _ => exact absurd rule ((predictive.spelled spelled).2 _ _)
  | node rule inner remaining innerHypothesis remainingHypothesis =>
      obtain ⟨tail, rfl⟩ :=
        predictive.exists_tail apart (.node rule inner remaining) otherForest same otherAvoids
      obtain ⟨separates, otherSeparates, further⟩ := Lookahead.tellsApart_cons_self.mp apart
      cases otherForest with
      | leaf spelled _ => exact absurd rule ((predictive.spelled spelled).2 _ _)
      | node otherRule otherInner otherRemaining =>
          rw [List.append_assoc, List.append_assoc] at same
          -- The two rules match the same tokens, and so they are one rule.
          obtain ⟨rfl, rfl, rfl⟩ := innerHypothesis (predictive.apart rule otherRule) otherInner
            same (predictive.avoids_of_separates separates remaining avoids)
            (predictive.avoids_of_separates otherSeparates otherRemaining otherAvoids)
          obtain rfl := predictive.distinct rule otherRule
          obtain ⟨rfl, rfl, rfl⟩ := remainingHypothesis further otherRemaining
            (List.append_cancel_left same) avoids otherAvoids
          exact ⟨rfl, rfl, rfl⟩

/-- A symbol that cannot go on where it can end derives no two words of which one begins the
other. -/
theorem single_unique (predictive : table.Predictive ahead) (closed : ahead.further symbol = [])
    (forest : table.Forest [symbol] trees tokens)
    (otherForest : table.Forest [symbol] others covered)
    (same : tokens ++ after = covered ++ rest) : trees = others ∧ tokens = covered := by
  have apart := ahead.tellsApart_single symbol
  rw [closed] at apart
  exact (predictive.forest_unique apart forest otherForest same (avoids_of_nil table _)
    (avoids_of_nil table _)).2

/-- The first symbols of a form that is told apart from itself derive tokens in one way only. -/
theorem take_unique {count : Nat} (predictive : table.Predictive ahead)
    (apart : ahead.TellsApart limit form form)
    (forest : table.Forest (form.take count) trees tokens)
    (otherForest : table.Forest (form.take count) others tokens) : trees = others := by
  obtain ⟨shorter, apartTaken⟩ := apart.take count
  exact (predictive.forest_unique apartTaken forest otherForest rfl (avoids_nil table shorter)
    (avoids_nil table shorter)).2.1

end Predictive

end RuleTable

namespace Declaration

variable {declaration : Declaration} {grammar : Grammar} {limits : Limits} {tokens : List Token}
  {chart : Chart} {start : String} {ahead : Lookahead (Symbol String String)}

/-- Rules are told apart by the next token if each two of them are. -/
theorem predictive_of_rules
    (spelled : ∀ name, .terminal name ∈ ahead.first (.terminal name))
    (begins : ∀ rule ∈ declaration.rules, ∃ name ∈ rule.rhs.head?,
      ∀ terminal ∈ ahead.first (declaration.symbol name),
        terminal ∈ ahead.first (.nonterminal rule.lhs))
    (apart : ∀ rule ∈ declaration.rules, ∀ other ∈ declaration.rules, rule.lhs = other.lhs →
      ahead.TellsApart (ahead.further (.nonterminal rule.lhs)) (rule.rhs.map declaration.symbol)
        (other.rhs.map declaration.symbol))
    (distinct : (declaration.rules.map fun rule =>
      (rule.lhs, rule.rhs.map declaration.symbol)).Nodup) :
    declaration.table.Predictive ahead where
  spelled := by
    intro token symbol spells
    obtain rfl := Option.some.inj spells
    refine ⟨spelled token.name, ?_⟩
    intro id rhs rule
    obtain ⟨_, _, same⟩ := Option.map_eq_some_iff.mp rule
    cases same
  begins := by
    intro id lhs rhs rule
    obtain ⟨declared, found, same⟩ := Option.map_eq_some_iff.mp rule
    obtain ⟨rfl, rfl⟩ := Prod.mk.inj same
    obtain ⟨name, isHead, included⟩ := begins declared (List.mem_of_getElem? found)
    obtain ⟨rest, parts⟩ := List.head?_eq_some_iff.mp isHead
    rw [parts]
    exact ⟨declaration.symbol name, rest.map declaration.symbol, rfl, included⟩
  apart := by
    intro id other lhs rhs otherRhs rule otherRule
    obtain ⟨declared, found, same⟩ := Option.map_eq_some_iff.mp rule
    obtain ⟨rfl, rfl⟩ := Prod.mk.inj same
    obtain ⟨otherDeclared, otherFound, otherSame⟩ := Option.map_eq_some_iff.mp otherRule
    obtain ⟨sameLhs, rfl⟩ := Prod.mk.inj otherSame
    exact apart declared (List.mem_of_getElem? found) otherDeclared
      (List.mem_of_getElem? otherFound) (Symbol.nonterminal.inj sameLhs).symm
  distinct := by
    intro id other rule found otherFound
    obtain ⟨declared, declaredAt, rfl⟩ := Option.map_eq_some_iff.mp found
    obtain ⟨otherDeclared, otherAt, same⟩ := Option.map_eq_some_iff.mp otherFound
    obtain ⟨sameLhs, sameRhs⟩ := Prod.mk.inj same
    have inside := (List.getElem?_eq_some_iff.mp declaredAt).1
    refine (List.getElem?_inj (by simpa using inside) distinct).mp ?_
    simp only [List.getElem?_map, declaredAt, otherAt, Option.map_some, sameRhs,
      Symbol.nonterminal.inj sameLhs]

/-- A production of a grammar that is built is the rule with its number, or has one symbol. -/
theorem exists_form_of_build (built : declaration.build = .ok grammar)
    (startName : declaration.startName? = some start) {id : ProductionId} {production : Production}
    (found : grammar.production? id = some production) :
    ∃ form, List.Forall₂ (declaration.Denotes start) production.rhs form ∧
      ((∃ lhs, declaration.table.rule? id = some (lhs, form)) ∨ ∃ symbol, form = [symbol]) := by
  obtain ⟨same, sameName, _, rfl⟩ := build_eq_ok built
  obtain rfl := Option.some.inj (startName.symm.trans sameName)
  have ofRule {rule : Rule} (ruleAt : declaration.rules[id]? = some rule) :
      ∃ form, List.Forall₂ (declaration.Denotes start)
          (Declaration.production (declaration.names start) rule).rhs form ∧
        ((∃ lhs, declaration.table.rule? id = some (lhs, form)) ∨ ∃ symbol, form = [symbol]) := by
    refine ⟨_, denotes_rhs (List.mem_of_getElem? ruleAt), .inl ⟨.nonterminal rule.lhs, ?_⟩⟩
    simp only [table, ruleAt, Option.map_some]
  unfold Declaration.grammar at found
  dsimp only at found
  split at found
  next only _ =>
    have present : (declaration.assembleWith start [] [] ((declaration.names start).idxOf start)
        only).production? id = some production := by
      simpa only [assembleWith, List.append_nil] using found
    rcases production?_assembleWith_cases present with ⟨rule, ruleAt, rfl⟩ | ⟨_, isExtra⟩
    · exact ofRule ruleAt
    · cases isExtra
  next =>
    rcases production?_assembleWith_cases found with ⟨rule, ruleAt, rfl⟩ | ⟨_, isExtra⟩
    · exact ofRule ruleAt
    · obtain rfl := List.mem_singleton.mp isExtra
      exact ⟨[declaration.symbol start], .cons ⟨start, start_mem_names, rfl, rfl⟩ .nil,
        .inr ⟨_, rfl⟩⟩

/-- Rules that the next token tells apart leave one derivation for each item. -/
theorem unambiguous_of_predictive (built : declaration.build = .ok grammar)
    (predictive : declaration.table.Predictive ahead) (coherent : Coherent grammar tokens chart) :
    chart.Unambiguous grammar tokens := by
  obtain ⟨start, numbers⟩ := numbers_of_build built
  intro place item present
  obtain ⟨trees, production, found, forest⟩ := coherent.exists_derivedBy numbers.consistent present
  refine ⟨trees, ⟨production, found, forest⟩, ?_⟩
  intro others otherDerived
  obtain ⟨same, sameFound, otherForest⟩ := otherDerived
  obtain rfl := Option.some.inj (found.symm.trans sameFound)
  obtain ⟨form, each, isRule⟩ := exists_form_of_build built numbers.startName found
  have apart : ∃ limit, ahead.TellsApart limit form form := by
    rcases isRule with ⟨lhs, rule⟩ | ⟨symbol, rfl⟩
    · exact ⟨_, predictive.apart rule rule⟩
    · exact ⟨_, ahead.tellsApart_single symbol⟩
  obtain ⟨limit, apart⟩ := apart
  exact predictive.take_unique apart
    (numbers.toNames.forest otherForest (List.forall₂_take item.dot each))
    (numbers.toNames.forest forest (List.forall₂_take item.dot each))

/-- A parse by rules that the next token tells apart drops no derivation, be its tokens a word of the
language or not. -/
theorem run_ambiguities_of_predictive (built : declaration.build = .ok grammar)
    (sizes : declaration.SizesFit tokens) (unlimited : limits.maxItems = 0)
    (predictive : declaration.table.Predictive ahead) :
    (grammar.run limits tokens).stats.ambiguities = 0 := by
  obtain ⟨start, numbers⟩ := numbers_of_build built
  obtain ⟨consumed, ready⟩ := numbers.consistent.run_ready unlimited tokens
  have undisputed : (grammar.run limits tokens).chart.Undisputed grammar tokens :=
    (ready.unambiguous_iff numbers.consistent (numbers.fits sizes)).mp
      (unambiguous_of_predictive built predictive ready.coherent)
  exact (ready.ambiguities_eq_zero_iff numbers.consistent (numbers.fits sizes)
    (numbers.consistent.run_balanced unlimited tokens)).mpr undisputed

end Declaration

end EarleyChart
