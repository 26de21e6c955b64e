import Mathlib.Data.List.Perm.Subperm
import EarleyChart.Grammar.Nullable
import EarleyChart.Proofs.Derivation

/-!
Contract: the nullable symbols of a grammar are closed under its productions, and no more than that.

`Settles` are the passes without a bound on their number. Every pass that adds a symbol adds a
left-hand side that was not known, so there are fewer such passes than rounds and the search ends in
a pass that adds nothing (`settles_symbols`). A symbol with a tree without leaves is therefore among the
symbols found. Conversely no pass leaves a set that is closed (`Settles.mem_of_mem`).
-/

namespace EarleyChart.Nullable

/-- Known symbols that no production adds to. -/
def Closed (productions : List Production) (known : List SymbolId) : Prop :=
  ∀ production ∈ productions, (∀ symbol ∈ production.rhs, symbol ∈ known) →
    production.lhs ∈ known

/-- The same of a set of symbols, be it finite or not. -/
def ClosedSet (productions : List Production) (known : Set SymbolId) : Prop :=
  ∀ production ∈ productions, (∀ symbol ∈ production.rhs, symbol ∈ known) →
    production.lhs ∈ known

/-- The passes over the productions with no bound on their number: they end with a pass that adds
nothing. -/
inductive Settles (productions : List Production) : List SymbolId → List SymbolId → Prop where
  | finished {known : List SymbolId} (stays : pass productions known = known) :
      Settles productions known known
  | again {known settled : List SymbolId} (adds : pass productions known ≠ known)
      (others : Settles productions (pass productions known) settled) :
      Settles productions known settled

/-- What holds of the known symbols between passes. -/
structure Reached (productions : List Production) (known : List SymbolId) : Prop where
  distinct : known.Nodup
  defined : known ⊆ productions.map Production.lhs

variable {productions : List Production} {known : List SymbolId}

theorem Reached.length_le (reached : Reached productions known) :
    known.length ≤ productions.length := by
  have below := (reached.distinct.subperm reached.defined).length_le
  simpa using below

theorem length_le_pass (productions : List Production) (known : List SymbolId) :
    known.length ≤ (pass productions known).length := by
  induction productions generalizing known with
  | nil => exact Nat.le_refl _
  | cons production rest inductionHypothesis =>
      have once : known.length ≤ (add known production).length := by
        unfold add
        split <;> simp
      exact Nat.le_trans once (inductionHypothesis (add known production))

theorem Reached.add {production : Production} (reached : Reached productions known)
    (member : production ∈ productions) : Reached productions (add known production) := by
  unfold Nullable.add
  split
  next adds =>
    simp only [Bool.and_eq_true, Bool.not_eq_true', List.contains_eq_mem,
      decide_eq_false_iff_not] at adds
    exact ⟨List.nodup_cons.mpr ⟨adds.1, reached.distinct⟩,
      List.cons_subset.mpr ⟨List.mem_map.mpr ⟨production, member, rfl⟩, reached.defined⟩⟩
  next => exact reached

theorem Reached.pass_of_subset {part : List Production} (among : part ⊆ productions)
    (reached : Reached productions known) : Reached productions (pass part known) := by
  induction part generalizing known with
  | nil => exact reached
  | cons production rest inductionHypothesis =>
      obtain ⟨member, others⟩ := List.cons_subset.mp among
      exact inductionHypothesis others (reached.add member)

theorem Reached.pass (reached : Reached productions known) :
    Reached productions (pass productions known) :=
  reached.pass_of_subset fun _ member => member

/-- A pass that adds nothing has found the known symbols closed. -/
theorem closed_of_pass_length (stays : (pass productions known).length = known.length) :
    Closed productions known := by
  induction productions with
  | nil => simp [Closed]
  | cons production rest inductionHypothesis =>
      have unchanged : add known production = known := by
        have grows := length_le_pass rest (add known production)
        change (pass rest (add known production)).length = _ at stays
        unfold add at grows stays ⊢
        split
        next adds =>
          rw [if_pos adds] at grows stays
          simp only [List.length_cons] at grows
          omega
        next => rfl
      have restStays : (pass rest known).length = known.length := by
        change (pass rest (add known production)).length = _ at stays
        rwa [unchanged] at stays
      intro other member nullable
      rcases List.mem_cons.mp member with rfl | inRest
      · by_contra missing
        have adds : (!known.contains other.lhs && other.rhs.all known.contains) = true := by
          simp only [Bool.and_eq_true, Bool.not_eq_true', List.contains_eq_mem,
            decide_eq_false_iff_not, List.all_eq_true, decide_eq_true_eq]
          exact ⟨missing, nullable⟩
        rw [add, if_pos adds] at unchanged
        exact absurd (congrArg List.length unchanged) (by simp)
      · exact inductionHypothesis restStays other inRest nullable

theorem add_eq_of_closed {production : Production}
    (closed : (∀ symbol ∈ production.rhs, symbol ∈ known) → production.lhs ∈ known) :
    add known production = known := by
  unfold add
  refine if_neg fun adds => ?_
  simp only [Bool.and_eq_true, Bool.not_eq_true', List.contains_eq_mem, decide_eq_false_iff_not,
    List.all_eq_true, decide_eq_true_eq] at adds
  exact adds.1 (closed adds.2)

theorem pass_eq_of_closed (closed : Closed productions known) : pass productions known = known := by
  induction productions with
  | nil => rfl
  | cons production rest inductionHypothesis =>
      have unchanged := add_eq_of_closed (closed production List.mem_cons_self)
      have others : Closed rest known := fun other member =>
        closed other (List.mem_cons_of_mem production member)
      change pass rest (add known production) = known
      rw [unchanged, inductionHypothesis others]

/-- One pass keeps the known symbols inside a closed set. -/
theorem mem_of_mem_pass {within : Set SymbolId} (closed : ClosedSet productions within)
    (inside : ∀ symbol ∈ known, symbol ∈ within) :
    ∀ symbol ∈ pass productions known, symbol ∈ within := by
  induction productions generalizing known with
  | nil => exact inside
  | cons production rest inductionHypothesis =>
      have others : ClosedSet rest within := fun other member =>
        closed other (List.mem_cons_of_mem production member)
      refine inductionHypothesis others ?_
      unfold add
      split
      next adds =>
        simp only [Bool.and_eq_true, List.all_eq_true, List.contains_eq_mem,
          decide_eq_true_eq] at adds
        have first := closed production List.mem_cons_self fun symbol used =>
          inside symbol (adds.2 symbol used)
        simpa using ⟨first, inside⟩
      next => exact inside

/-- All passes keep the known symbols inside a closed set. -/
theorem Settles.mem_of_mem {within : Set SymbolId} (settles : Settles productions known settled)
    (closed : ClosedSet productions within) (inside : ∀ symbol ∈ known, symbol ∈ within) :
    ∀ symbol ∈ settled, symbol ∈ within := by
  induction settles with
  | finished _ => exact inside
  | again _ _ inductionHypothesis => exact inductionHypothesis (mem_of_mem_pass closed inside)

theorem Settles.closed (settles : Settles productions known settled) :
    Closed productions settled := by
  induction settles with
  | finished stays => exact closed_of_pass_length (congrArg List.length stays)
  | again _ _ inductionHypothesis => exact inductionHypothesis

/-- The rounds that the productions allow are enough for the passes to come to their end. -/
theorem settles_close (rounds : Nat) (reached : Reached productions known)
    (enough : productions.length < known.length + rounds) :
    Settles productions known (close productions rounds known) := by
  induction rounds generalizing known with
  | zero =>
      have bounded := reached.length_le
      omega
  | succ rounds inductionHypothesis =>
      simp only [close]
      split
      next stays => exact .finished (pass_eq_of_closed (closed_of_pass_length stays))
      next adds =>
        have grows := length_le_pass productions known
        exact .again (fun stays => adds (congrArg List.length stays))
          (inductionHypothesis reached.pass (by omega))

theorem settles_symbols (productions : List Production) :
    Settles productions [] (symbols productions) :=
  settles_close _ ⟨List.nodup_nil, List.nil_subset _⟩ (by simp)

theorem closed_symbols (productions : List Production) :
    Closed productions (symbols productions) :=
  (settles_symbols productions).closed

/-- The symbols of a forest without tokens belong to every closed set. -/
theorem mem_of_forest {table : RuleTable SymbolId}
    (listed : ∀ {id lhs rhs}, table.rule? id = some (lhs, rhs) →
      ∃ production ∈ productions, production.lhs = lhs ∧ production.rhs = rhs)
    (closed : Closed productions known) {form : List SymbolId} {trees : List Tree}
    {tokens : List Token} (forest : table.Forest form trees tokens) (empty : tokens = []) :
    ∀ symbol ∈ form, symbol ∈ known := by
  induction forest with
  | nil => simp
  | leaf => contradiction
  | node rule _ _ innerHypothesis othersHypothesis =>
      obtain ⟨innerEmpty, othersEmpty⟩ := List.append_eq_nil_iff.mp empty
      obtain ⟨production, member, rfl, rfl⟩ := listed rule
      have first := closed production member (innerHypothesis innerEmpty)
      simpa using ⟨first, othersHypothesis othersEmpty⟩

end EarleyChart.Nullable
