import Mathlib.Computability.ContextFreeGrammar
import EarleyChart.Grammar.Declaration
import EarleyChart.Proofs.Derivation

/-!
Contract: the context-free grammar that a declaration stands for.

The declared names are the terminals, all other names the nonterminals, and the rules are those of
the declaration. Derivation trees and rewriting agree: `exists_isDerivation_iff` for whole inputs and
`exists_generates_iff` for inputs that stop before an expected symbol.
-/

namespace EarleyChart

/-- The terminals that tokens spell, as a sentential form. -/
def spelling (tokens : List Token) : List (Symbol String String) :=
  tokens.map fun token => .terminal token.name

@[simp] theorem spelling_nil : spelling [] = [] := rfl

@[simp] theorem spelling_cons (token : Token) (rest : List Token) :
    spelling (token :: rest) = .terminal token.name :: spelling rest := rfl

@[simp] theorem spelling_append (first rest : List Token) :
    spelling (first ++ rest) = spelling first ++ spelling rest :=
  List.map_append

namespace Declaration

/-- The symbol that a name stands for: a terminal if it is declared as one. -/
def symbol (declaration : Declaration) (name : String) : Symbol String String :=
  if declaration.isTerminal name then .terminal name else .nonterminal name

/-- The context-free grammar of a declaration. -/
abbrev contextFree (declaration : Declaration) : ContextFreeGrammar String where
  NT := String
  initial := declaration.startName?.getD ""
  rules := (declaration.rules.map fun rule =>
    (⟨rule.lhs, rule.rhs.map declaration.symbol⟩ : ContextFreeRule String String)).toFinset

/-- The words of a declaration: what its start symbol derives. -/
def language (declaration : Declaration) : Language String :=
  declaration.contextFree.language

/-- A form is derived from the start symbol. -/
def Generates (declaration : Declaration) (form : List (Symbol String String)) : Prop :=
  declaration.contextFree.Generates form

/-- The rules of a declaration under their numbers. -/
def table (declaration : Declaration) : RuleTable (Symbol String String) where
  rule? id := (declaration.rules[id]?).map fun rule =>
    (.nonterminal rule.lhs, rule.rhs.map declaration.symbol)
  spell? token := some (.terminal token.name)

def reducer? (declaration : Declaration) (id : Nat) : Option Reducer :=
  (declaration.rules[id]?).bind Rule.reducer

/-- A tree derives the tokens from the start symbol. -/
def IsDerivation (declaration : Declaration) (tree : Tree) (tokens : List Token) : Prop :=
  declaration.table.Forest [.nonterminal (declaration.startName?.getD "")] [tree] tokens

variable {declaration : Declaration}

theorem produces_iff {before after : List (Symbol String String)} :
    declaration.contextFree.Produces before after ↔
      ∃ id lhs rhs left right, declaration.table.rule? id = some (lhs, rhs) ∧
        before = left ++ [lhs] ++ right ∧ after = left ++ rhs ++ right := by
  constructor
  · intro parts
    obtain ⟨rule, member, rewrites⟩ := parts
    obtain ⟨left, right, rfl, rfl⟩ := rewrites.exists_parts
    obtain ⟨declared, declaredMember, rfl⟩ := List.mem_map.mp (List.mem_toFinset.mp member)
    obtain ⟨id, found⟩ := List.mem_iff_getElem?.mp declaredMember
    refine ⟨id, _, _, left, right, ?_, rfl, rfl⟩
    simp only [table, found, Option.map_some]
  · intro parts
    obtain ⟨id, lhs, rhs, left, right, rule, rfl, rfl⟩ := parts
    obtain ⟨declared, found, equal⟩ := Option.map_eq_some_iff.mp rule
    obtain ⟨rfl, rfl⟩ := Prod.mk.inj equal
    refine ⟨⟨declared.lhs, declared.rhs.map declaration.symbol⟩, ?_,
      ContextFreeRule.rewrites_of_exists_parts _ left right⟩
    exact List.mem_toFinset.mpr
      (List.mem_map.mpr ⟨declared, List.mem_of_getElem? found, rfl⟩)

theorem derives_of_rule {id : Nat} {lhs : Symbol String String}
    {rhs : List (Symbol String String)} (rule : declaration.table.rule? id = some (lhs, rhs))
    (right : List (Symbol String String)) :
    declaration.contextFree.Derives (lhs :: right) (rhs ++ right) :=
  (produces_iff.mpr ⟨id, lhs, rhs, [], right, rule, rfl, rfl⟩).single

theorem derives_of_forest {form : List (Symbol String String)} {trees : List Tree}
    {tokens : List Token} (forest : declaration.table.Forest form trees tokens) :
    declaration.contextFree.Derives form (spelling tokens) := by
  induction forest with
  | nil => rfl
  | @leaf symbol _ token _ _ spelled _ inductionHypothesis =>
      obtain rfl : .terminal token.name = symbol := Option.some.inj spelled
      exact inductionHypothesis.append_left [.terminal token.name]
  | node rule _ _ innerHypothesis othersHypothesis =>
      rw [spelling_append]
      exact (derives_of_rule rule _).trans
        ((innerHypothesis.append_right _).trans (othersHypothesis.append_left _))

theorem derives_of_begins {expected : Symbol String String} {form : List (Symbol String String)}
    {tokens : List Token} (begins : declaration.table.Begins expected form tokens) :
    ∃ rest, declaration.contextFree.Derives form (spelling tokens ++ expected :: rest) := by
  induction begins with
  | @here symbols => exact ⟨symbols, by rfl⟩
  | @into _ _ _ symbols _ rule _ inductionHypothesis =>
      obtain ⟨rest, derives⟩ := inductionHypothesis
      refine ⟨rest ++ symbols, (derives_of_rule rule symbols).trans ?_⟩
      simpa using derives.append_right symbols
  | past matched _ inductionHypothesis =>
      obtain ⟨rest, derives⟩ := inductionHypothesis
      refine ⟨rest, ((derives_of_forest matched).append_right _).trans ?_⟩
      simpa using derives.append_left (spelling _)

theorem forest_spelling (tokens : List Token) :
    declaration.table.Forest (spelling tokens) (tokens.map .leaf) tokens := by
  induction tokens with
  | nil => exact .nil
  | cons token rest inductionHypothesis => exact .leaf rfl inductionHypothesis

theorem forest_of_derives {form : List (Symbol String String)} {tokens : List Token}
    (derives : declaration.contextFree.Derives form (spelling tokens)) :
    ∃ trees, declaration.table.Forest form trees tokens := by
  -- Backwards along the derivation: each step folds the trees of a right-hand side into a node.
  induction derives using Relation.ReflTransGen.head_induction_on with
  | refl => exact ⟨_, forest_spelling tokens⟩
  | head step _ inductionHypothesis =>
      obtain ⟨trees, forest⟩ := inductionHypothesis
      obtain ⟨id, lhs, rhs, left, right, rule, rfl, rfl⟩ := produces_iff.mp step
      obtain ⟨_, rightTrees, _, rightTokens, rfl, rfl, front, back⟩ := forest.split
      obtain ⟨leftTrees, children, leftTokens, covered, rfl, rfl, left, inner⟩ := front.split
      exact ⟨_, (left.append (.single_node rule inner)).append back⟩

theorem begins_of_derives {expected : Symbol String String}
    {form rest : List (Symbol String String)} {tokens : List Token}
    (derives : declaration.contextFree.Derives form (spelling tokens ++ expected :: rest)) :
    declaration.table.Begins expected form tokens := by
  induction derives using Relation.ReflTransGen.head_induction_on with
  | refl => simpa using RuleTable.Begins.after (forest_spelling tokens) .here
  | head step _ inductionHypothesis =>
      obtain ⟨id, lhs, rhs, left, right, rule, rfl, rfl⟩ := produces_iff.mp step
      rw [List.append_assoc] at inductionHypothesis ⊢
      rcases inductionHypothesis.split with
        inLeft | ⟨leftTrees, leftTokens, restTokens, rfl, matched, inRest⟩
      · exact inLeft.append_right _
      · refine .after matched ?_
        rcases inRest.split with
          inRule | ⟨children, covered, rightTokens, rfl, inner, inRight⟩
        · exact .into rule inRule
        · exact .after (.single_node rule inner) inRight

/-- Tokens have a derivation tree exactly if the start symbol derives what they spell. -/
theorem exists_isDerivation_iff {tokens : List Token} :
    (∃ tree, declaration.IsDerivation tree tokens) ↔
      tokens.map Token.name ∈ declaration.language := by
  have spelled : (tokens.map Token.name).map Symbol.terminal = spelling tokens := by
    simp [spelling]
  constructor
  · intro parts
    obtain ⟨tree, forest⟩ := parts
    change declaration.contextFree.Derives _ ((tokens.map Token.name).map Symbol.terminal)
    rw [spelled]
    exact derives_of_forest forest
  · intro member
    change declaration.contextFree.Derives _ ((tokens.map Token.name).map Symbol.terminal) at member
    rw [spelled] at member
    obtain ⟨trees, forest⟩ := forest_of_derives member
    obtain ⟨tree, rfl⟩ := List.length_eq_one_iff.mp forest.length_eq
    exact ⟨tree, forest⟩

/-- A symbol can follow tokens in a form derived from the start symbol exactly if the start symbol
begins with them. -/
theorem exists_generates_iff {expected : Symbol String String} {tokens : List Token} :
    (∃ rest, declaration.Generates (spelling tokens ++ expected :: rest)) ↔
      declaration.table.Begins expected [.nonterminal (declaration.startName?.getD "")] tokens := by
  constructor
  · intro parts
    obtain ⟨rest, generates⟩ := parts
    exact begins_of_derives generates
  · intro begins
    exact derives_of_begins begins

end Declaration

end EarleyChart
