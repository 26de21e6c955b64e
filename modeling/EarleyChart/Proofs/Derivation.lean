import Mathlib.Data.List.Forall2
import EarleyChart.Action.Basic

/-!
Contract: derivation trees of numbered rules.

Rules are known by their number, over symbols of any kind, so that the names of a declaration and
the numbers of a grammar share one theory. `RuleTable.Forest` lists trees, one for each symbol of a
sentential form, whose leaves are the given tokens in order. `RuleTable.Begins` tells that a form
derives some tokens and then a symbol, whatever comes after it.

`RuleTable.Simulates` carries both over from one table to another: it is what a renaming of symbols
has to respect.
-/

namespace EarleyChart

/-- A derivation tree. A node is known by the number of its rule. -/
inductive Tree where
  | leaf (token : Token)
  | node (rule : Nat) (children : List Tree)

namespace Tree

mutual

/-- The value of a tree: the token of a leaf, and at a node the reduction of the values of its
children. -/
def value (reducer? : Nat → Option Reducer) : Tree → Value
  | leaf token => .token token
  | node rule children => Reducer.reduce (reducer? rule) (values reducer? children)
termination_by structural tree => tree

def values (reducer? : Nat → Option Reducer) : List Tree → List Value
  | [] => []
  | tree :: rest => value reducer? tree :: values reducer? rest
termination_by structural trees => trees

end

@[simp] theorem values_append (reducer? : Nat → Option Reducer) (first rest : List Tree) :
    values reducer? (first ++ rest) = values reducer? first ++ values reducer? rest := by
  induction first with
  | nil => rfl
  | cons tree others inductionHypothesis => simp [values, inductionHypothesis]

end Tree

/-- Numbered rules over symbols, and the symbol that each token spells. -/
structure RuleTable (σ : Type) where
  rule? : Nat → Option (σ × List σ)
  spell? : Token → Option σ

namespace RuleTable

variable {σ τ : Type}

/-- Trees for the symbols of a form, with the tokens at their leaves. -/
inductive Forest (table : RuleTable σ) : List σ → List Tree → List Token → Prop where
  | nil : Forest table [] [] []
  | leaf {symbol : σ} {symbols : List σ} {token : Token} {trees : List Tree} {rest : List Token}
      (spelled : table.spell? token = some symbol)
      (others : Forest table symbols trees rest) :
      Forest table (symbol :: symbols) (.leaf token :: trees) (token :: rest)
  | node {id : Nat} {lhs : σ} {rhs symbols : List σ} {children trees : List Tree}
      {covered rest : List Token}
      (rule : table.rule? id = some (lhs, rhs))
      (inner : Forest table rhs children covered)
      (others : Forest table symbols trees rest) :
      Forest table (lhs :: symbols) (.node id children :: trees) (covered ++ rest)

/-- A form derives the tokens and then `expected`, with any form after it. -/
inductive Begins (table : RuleTable σ) (expected : σ) : List σ → List Token → Prop where
  | here {symbols : List σ} : Begins table expected (expected :: symbols) []
  /-- The expected symbol comes from inside the first symbol. -/
  | into {id : Nat} {lhs : σ} {rhs symbols : List σ} {tokens : List Token}
      (rule : table.rule? id = some (lhs, rhs))
      (inner : Begins table expected rhs tokens) :
      Begins table expected (lhs :: symbols) tokens
  /-- The first symbol is matched as a whole. -/
  | past {first : σ} {symbols : List σ} {tree : Tree} {covered tokens : List Token}
      (matched : Forest table [first] [tree] covered)
      (others : Begins table expected symbols tokens) :
      Begins table expected (first :: symbols) (covered ++ tokens)

section Forests

variable {table : RuleTable σ}

theorem Forest.length_eq {symbols : List σ} {trees : List Tree} {tokens : List Token}
    (forest : table.Forest symbols trees tokens) : trees.length = symbols.length := by
  induction forest with
  | nil => rfl
  | leaf _ _ inductionHypothesis => simp [inductionHypothesis]
  | node _ _ _ _ inductionHypothesis => simp [inductionHypothesis]

theorem Forest.append {first rest : List σ} {firstTrees restTrees : List Tree}
    {firstTokens restTokens : List Token}
    (firstForest : table.Forest first firstTrees firstTokens)
    (restForest : table.Forest rest restTrees restTokens) :
    table.Forest (first ++ rest) (firstTrees ++ restTrees) (firstTokens ++ restTokens) := by
  induction firstForest with
  | nil => exact restForest
  | leaf spelled _ inductionHypothesis => exact .leaf spelled inductionHypothesis
  | node rule inner _ _ inductionHypothesis =>
      rw [List.append_assoc]
      exact .node rule inner inductionHypothesis

/-- A forest of a form in two parts falls into a forest of each part. -/
theorem Forest.split {first rest : List σ} {trees : List Tree} {tokens : List Token}
    (forest : table.Forest (first ++ rest) trees tokens) :
    ∃ firstTrees restTrees firstTokens restTokens,
      trees = firstTrees ++ restTrees ∧ tokens = firstTokens ++ restTokens ∧
        table.Forest first firstTrees firstTokens ∧ table.Forest rest restTrees restTokens := by
  induction first generalizing trees tokens with
  | nil => exact ⟨[], trees, [], tokens, rfl, rfl, .nil, forest⟩
  | cons symbol symbols inductionHypothesis =>
      cases forest with
      | leaf spelled others =>
          obtain ⟨firstTrees, restTrees, firstTokens, restTokens, rfl, rfl, left, right⟩ :=
            inductionHypothesis others
          exact ⟨_ :: firstTrees, restTrees, _ :: firstTokens, restTokens, rfl, rfl,
            .leaf spelled left, right⟩
      | node rule inner others =>
          obtain ⟨firstTrees, restTrees, firstTokens, restTokens, rfl, rfl, left, right⟩ :=
            inductionHypothesis others
          exact ⟨_ :: firstTrees, restTrees, _ ++ firstTokens, restTokens, rfl,
            (List.append_assoc ..).symm, .node rule inner left, right⟩

theorem Forest.single_leaf {symbol : σ} {token : Token} (spelled : table.spell? token = some symbol) :
    table.Forest [symbol] [.leaf token] [token] :=
  .leaf spelled .nil

theorem Forest.single_node {id : Nat} {lhs : σ} {rhs : List σ} {children : List Tree}
    {tokens : List Token} (rule : table.rule? id = some (lhs, rhs))
    (inner : table.Forest rhs children tokens) :
    table.Forest [lhs] [.node id children] tokens := by
  simpa using Forest.node rule inner .nil

/-- The tree of a single symbol is a leaf or the node of one of its rules. -/
theorem Forest.single_cases {symbol : σ} {trees : List Tree} {tokens : List Token}
    (forest : table.Forest [symbol] trees tokens) :
    (∃ token, table.spell? token = some symbol ∧ trees = [.leaf token] ∧ tokens = [token]) ∨
      ∃ id rhs children, table.rule? id = some (symbol, rhs) ∧ trees = [.node id children] ∧
        table.Forest rhs children tokens := by
  cases forest with
  | leaf spelled others =>
      cases others
      exact .inl ⟨_, spelled, rfl, rfl⟩
  | node rule inner others =>
      cases others
      exact .inr ⟨_, _, _, rule, rfl, by simpa using inner⟩

/-- What is expected after a matched form is expected after that form. -/
theorem Begins.after {expected : σ} {first rest : List σ} {trees : List Tree}
    {firstTokens restTokens : List Token} (matched : table.Forest first trees firstTokens)
    (others : table.Begins expected rest restTokens) :
    table.Begins expected (first ++ rest) (firstTokens ++ restTokens) := by
  induction matched with
  | nil => exact others
  | leaf spelled _ inductionHypothesis =>
      have stepped := Begins.past (.single_leaf spelled) inductionHypothesis
      exact stepped
  | node rule inner _ _ inductionHypothesis =>
      rw [List.append_assoc]
      exact .past (.single_node rule inner) inductionHypothesis

theorem Begins.append_right {expected : σ} {first : List σ} {tokens : List Token}
    (begins : table.Begins expected first tokens) (rest : List σ) :
    table.Begins expected (first ++ rest) tokens := by
  induction begins with
  | here => exact .here
  | into rule inner _ => exact .into rule inner
  | past matched _ inductionHypothesis => exact .past matched inductionHypothesis

/-- What is expected in a form of two parts is expected in the first part, or in the second after
the first is matched. -/
theorem Begins.split {expected : σ} {first rest : List σ} {tokens : List Token}
    (begins : table.Begins expected (first ++ rest) tokens) :
    table.Begins expected first tokens ∨
      ∃ trees firstTokens restTokens, tokens = firstTokens ++ restTokens ∧
        table.Forest first trees firstTokens ∧ table.Begins expected rest restTokens := by
  induction first generalizing tokens with
  | nil => exact .inr ⟨[], [], tokens, rfl, .nil, begins⟩
  | cons symbol symbols inductionHypothesis =>
      cases begins with
      | here => exact .inl .here
      | into rule inner => exact .inl (.into rule inner)
      | past matched others =>
          rcases inductionHypothesis others with inFirst | ⟨trees, before, after, rfl, forest, inRest⟩
          · exact .inl (.past matched inFirst)
          · exact .inr ⟨_, _, after, (List.append_assoc ..).symm, matched.append forest, inRest⟩

/-- What is expected in a single symbol is the symbol itself, or comes from one of its rules. -/
theorem Begins.single_cases {expected symbol : σ} {tokens : List Token}
    (begins : table.Begins expected [symbol] tokens) :
    (expected = symbol ∧ tokens = []) ∨
      ∃ id rhs, table.rule? id = some (symbol, rhs) ∧ table.Begins expected rhs tokens := by
  cases begins with
  | here => exact .inl ⟨rfl, rfl⟩
  | into rule inner => exact .inr ⟨_, _, rule, inner⟩
  | past _ others => cases others

/-- Some tree derives a symbol. -/
def Productive (table : RuleTable σ) (symbol : σ) : Prop :=
  ∃ trees tokens, table.Forest [symbol] trees tokens

theorem exists_forest_of_productive {form : List σ}
    (productive : ∀ symbol ∈ form, table.Productive symbol) :
    ∃ trees tokens, table.Forest form trees tokens := by
  induction form with
  | nil => exact ⟨[], [], .nil⟩
  | cons symbol symbols inductionHypothesis =>
      obtain ⟨first, firstTokens, firstForest⟩ := productive symbol List.mem_cons_self
      obtain ⟨rest, restTokens, restForest⟩ :=
        inductionHypothesis fun other member => productive other (List.mem_cons_of_mem _ member)
      exact ⟨_, _, firstForest.append restForest⟩

/-- Where every symbol is productive, what is expected can come, and something can come after it. -/
theorem Begins.exists_forest {expected : σ} {form : List σ} {tokens : List Token} {token : Token}
    (begins : table.Begins expected form tokens) (spelled : table.spell? token = some expected)
    (rulesProductive : ∀ {id lhs rhs}, table.rule? id = some (lhs, rhs) →
      ∀ symbol ∈ rhs, table.Productive symbol)
    (productive : ∀ symbol ∈ form, table.Productive symbol) :
    ∃ trees after, table.Forest form trees (tokens ++ token :: after) := by
  induction begins with
  | here =>
      obtain ⟨trees, after, forest⟩ := exists_forest_of_productive
        fun symbol member => productive symbol (List.mem_cons_of_mem _ member)
      exact ⟨_, after, .leaf spelled forest⟩
  | @into id _ _ _ _ rule _ inductionHypothesis =>
      obtain ⟨children, covered, inner⟩ := inductionHypothesis (rulesProductive rule)
      obtain ⟨trees, after, forest⟩ := exists_forest_of_productive
        fun symbol member => productive symbol (List.mem_cons_of_mem _ member)
      have whole := Forest.node rule inner forest
      rw [List.append_assoc, List.cons_append] at whole
      exact ⟨.node id children :: trees, covered ++ after, whole⟩
  | @past _ _ tree _ _ matched _ inductionHypothesis =>
      obtain ⟨trees, after, forest⟩ := inductionHypothesis
        fun symbol member => productive symbol (List.mem_cons_of_mem _ member)
      refine ⟨tree :: trees, after, ?_⟩
      rw [List.append_assoc]
      exact matched.append forest

end Forests

/-- Related symbols are spelled by the same tokens and rewritten by the same rules. -/
structure Simulates (source : RuleTable σ) (target : RuleTable τ) (related : σ → τ → Prop) :
    Prop where
  spell : ∀ {token symbol image}, source.spell? token = some symbol → related symbol image →
    target.spell? token = some image
  rule : ∀ {id lhs rhs image}, source.rule? id = some (lhs, rhs) → related lhs image →
    ∃ rhsImage, target.rule? id = some (image, rhsImage) ∧ List.Forall₂ related rhs rhsImage

section Simulation

variable {source : RuleTable σ} {target : RuleTable τ} {related : σ → τ → Prop}

theorem Simulates.forest (simulates : source.Simulates target related) {symbols : List σ}
    {trees : List Tree} {tokens : List Token} (forest : source.Forest symbols trees tokens)
    {images : List τ} (each : List.Forall₂ related symbols images) :
    target.Forest images trees tokens := by
  induction forest generalizing images with
  | nil =>
      cases each
      exact .nil
  | leaf spelled _ inductionHypothesis =>
      cases each with
      | cons first others =>
          exact .leaf (simulates.spell spelled first) (inductionHypothesis others)
  | node rule _ _ innerHypothesis othersHypothesis =>
      cases each with
      | cons first others =>
          obtain ⟨rhsImage, ruleImage, rhsRelated⟩ := simulates.rule rule first
          exact .node ruleImage (innerHypothesis rhsRelated) (othersHypothesis others)

theorem Simulates.begins (simulates : source.Simulates target related) {expected : σ}
    {symbols : List σ} {tokens : List Token} (begins : source.Begins expected symbols tokens)
    {images : List τ} (each : List.Forall₂ related symbols images) :
    ∃ image, related expected image ∧ target.Begins image images tokens := by
  induction begins generalizing images with
  | here =>
      cases each with
      | cons first _ => exact ⟨_, first, .here⟩
  | into rule _ inductionHypothesis =>
      cases each with
      | cons first _ =>
          obtain ⟨rhsImage, ruleImage, rhsRelated⟩ := simulates.rule rule first
          obtain ⟨image, expectedRelated, inner⟩ := inductionHypothesis rhsRelated
          exact ⟨image, expectedRelated, .into ruleImage inner⟩
  | past matched _ inductionHypothesis =>
      cases each with
      | cons first others =>
          obtain ⟨image, expectedRelated, after⟩ := inductionHypothesis others
          exact ⟨image, expectedRelated, .past (simulates.forest matched (.cons first .nil)) after⟩

end Simulation

end RuleTable

end EarleyChart
