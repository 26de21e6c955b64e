import EarleyChart.Proofs.Correctness

/-!
Contract: the values that a declaration gives to tokens.

`Declaration.Means` leaves the trees out of a derivation: symbols derive tokens with some values. It is
known symbol by symbol. A terminal takes one token, and a nonterminal takes what one of its rules
takes and reduces the values found there.

Where every symbol of the rules is productive, tokens that a derived form begins with are the
beginning of a word (`exists_word_of_viable`).
-/

namespace EarleyChart.Declaration

/-- The symbols derive the tokens with the given values. -/
def Means (declaration : Declaration) (symbols : List (Symbol String String))
    (values : List Value) (tokens : List Token) : Prop :=
  ∃ trees, declaration.table.Forest symbols trees tokens ∧
    values = Tree.values declaration.reducer? trees

/-- The rules of a nonterminal with their numbers. -/
def rulesOf (declaration : Declaration) (name : String) :
    List (Nat × List (Symbol String String)) :=
  (declaration.rules.zipIdx.filter fun entry => entry.1.lhs = name).map fun entry =>
    (entry.2, entry.1.rhs.map declaration.symbol)

variable {declaration : Declaration} {symbols : List (Symbol String String)} {values : List Value}
  {tokens : List Token} {name : String}

theorem mem_rulesOf {id : Nat} {rhs : List (Symbol String String)} :
    (id, rhs) ∈ declaration.rulesOf name ↔
      declaration.table.rule? id = some (.nonterminal name, rhs) := by
  simp only [rulesOf, List.mem_map, List.mem_filter, decide_eq_true_eq, Prod.exists,
    List.mem_zipIdx_iff_getElem?, Prod.mk.injEq, table, Option.map_eq_some_iff,
    Symbol.nonterminal.injEq]
  constructor
  · intro listed
    obtain ⟨rule, place, ⟨found, sameName⟩, rfl, sameForm⟩ := listed
    exact ⟨rule, found, sameName, sameForm⟩
  · intro declared
    obtain ⟨rule, found, sameName, sameForm⟩ := declared
    exact ⟨rule, id, ⟨found, sameName⟩, rfl, sameForm⟩

theorem means_nil : declaration.Means [] values tokens ↔ values = [] ∧ tokens = [] := by
  constructor
  · intro means
    obtain ⟨trees, forest, rfl⟩ := means
    cases forest
    exact ⟨rfl, rfl⟩
  · intro empty
    obtain ⟨rfl, rfl⟩ := empty
    exact ⟨[], .nil, rfl⟩

theorem means_terminal_cons :
    declaration.Means (.terminal name :: symbols) values tokens ↔
      ∃ token others rest, token.name = name ∧ values = .token token :: others ∧
        tokens = token :: rest ∧ declaration.Means symbols others rest := by
  constructor
  · intro means
    obtain ⟨trees, forest, rfl⟩ := means
    cases forest with
    | @leaf _ _ token trees rest spelled others =>
        have named : token.name = name := Symbol.terminal.inj (Option.some.inj spelled)
        exact ⟨token, _, rest, named, rfl, rfl, trees, others, rfl⟩
    | node rule _ _ =>
        obtain ⟨_, _, same⟩ := Option.map_eq_some_iff.mp rule
        cases same
  · intro parts
    obtain ⟨token, others, rest, rfl, rfl, rfl, trees, forest, rfl⟩ := parts
    exact ⟨.leaf token :: trees, .leaf rfl forest, rfl⟩

theorem means_terminal :
    declaration.Means [.terminal name] values tokens ↔
      ∃ token, token.name = name ∧ values = [.token token] ∧ tokens = [token] := by
  rw [means_terminal_cons]
  constructor
  · intro parts
    obtain ⟨token, others, rest, named, rfl, rfl, none⟩ := parts
    obtain ⟨rfl, rfl⟩ := means_nil.mp none
    exact ⟨token, named, rfl, rfl⟩
  · intro parts
    obtain ⟨token, named, rfl, rfl⟩ := parts
    exact ⟨token, [], [], named, rfl, rfl, means_nil.mpr ⟨rfl, rfl⟩⟩

theorem exists_value_of_means {symbol : Symbol String String}
    (means : declaration.Means [symbol] values tokens) : ∃ value, values = [value] := by
  obtain ⟨trees, forest, rfl⟩ := means
  obtain ⟨tree, rfl⟩ := List.length_eq_one_iff.mp forest.length_eq
  exact ⟨_, rfl⟩

/-- A nonterminal takes what one of its rules takes. -/
theorem means_nonterminal {value : Value} :
    declaration.Means [.nonterminal name] [value] tokens ↔
      ∃ id rhs children, (id, rhs) ∈ declaration.rulesOf name ∧
        declaration.Means rhs children tokens ∧
        value = Reducer.reduce (declaration.reducer? id) children := by
  constructor
  · intro means
    obtain ⟨trees, forest, valued⟩ := means
    rcases forest.single_cases with
      ⟨token, spelled, _⟩ | ⟨id, rhs, children, rule, rfl, inner⟩
    · cases spelled
    · refine ⟨id, rhs, _, mem_rulesOf.mpr rule, ⟨children, inner, rfl⟩, ?_⟩
      rw [(List.cons.inj valued).1, Tree.value]
  · intro parts
    obtain ⟨id, rhs, _, member, ⟨children, inner, rfl⟩, rfl⟩ := parts
    refine ⟨[.node id children], .single_node (mem_rulesOf.mp member) inner, ?_⟩
    rw [Tree.values, Tree.value]
    rfl

theorem means_cons_iff {symbol : Symbol String String} :
    declaration.Means (symbol :: symbols) values tokens ↔
      ∃ value others covered rest, declaration.Means [symbol] [value] covered ∧
        declaration.Means symbols others rest ∧ values = value :: others ∧
        tokens = covered ++ rest := by
  constructor
  · intro means
    obtain ⟨trees, forest, rfl⟩ := means
    have parted : declaration.table.Forest ([symbol] ++ symbols) trees tokens := forest
    obtain ⟨first, others, covered, rest, rfl, rfl, firstForest, othersForest⟩ := parted.split
    obtain ⟨tree, rfl⟩ := List.length_eq_one_iff.mp firstForest.length_eq
    exact ⟨tree.value declaration.reducer?, _, covered, rest, ⟨[tree], firstForest, rfl⟩,
      ⟨others, othersForest, rfl⟩, rfl, rfl⟩
  · intro parts
    obtain ⟨value, _, covered, rest, ⟨first, firstForest, valued⟩, ⟨others, forest, rfl⟩, rfl, rfl⟩ :=
      parts
    refine ⟨first ++ others, firstForest.append forest, ?_⟩
    rw [Tree.values_append, ← valued]
    rfl

/-- The values of whole inputs are those of their derivations. -/
theorem means_start_iff {value : Value} :
    declaration.Means [.nonterminal (declaration.startName?.getD "")] [value] tokens ↔
      ∃ tree, declaration.IsDerivation tree tokens ∧ value = tree.value declaration.reducer? := by
  constructor
  · intro means
    obtain ⟨trees, forest, valued⟩ := means
    obtain ⟨tree, rfl⟩ := List.length_eq_one_iff.mp forest.length_eq
    exact ⟨tree, forest, (List.cons.inj valued).1⟩
  · intro derived
    obtain ⟨tree, derivation, rfl⟩ := derived
    exact ⟨[tree], derivation, rfl⟩

theorem viable_of_means {after : List Token} {value : Value}
    (means : declaration.Means [.nonterminal (declaration.startName?.getD "")] [value]
      (tokens ++ after)) : declaration.Viable tokens := by
  obtain ⟨tree, derivation, _⟩ := means_start_iff.mp means
  refine ⟨spelling after, ?_⟩
  rw [← spelling_append]
  exact derives_of_forest derivation

/-- Tokens that a derived form begins with are the beginning of a word. -/
theorem exists_word_of_viable {token : Token}
    (productive : ∀ rule ∈ declaration.rules, ∀ name ∈ rule.rhs,
      declaration.table.Productive (declaration.symbol name))
    (startProductive : declaration.table.Productive
      (.nonterminal (declaration.startName?.getD "")))
    (viable : declaration.Viable (tokens ++ [token])) :
    ∃ value after, declaration.Means [.nonterminal (declaration.startName?.getD "")] [value]
      (tokens ++ token :: after) := by
  obtain ⟨rest, generates⟩ := viable
  have begins : declaration.table.Begins (.terminal token.name)
      [.nonterminal (declaration.startName?.getD "")] tokens := by
    refine exists_generates_iff.mp ⟨rest, ?_⟩
    simpa using generates
  have rulesProductive {id : Nat} {lhs : Symbol String String} {rhs : List (Symbol String String)}
      (rule : declaration.table.rule? id = some (lhs, rhs)) (symbol : Symbol String String)
      (member : symbol ∈ rhs) : declaration.table.Productive symbol := by
    obtain ⟨declared, found, same⟩ := Option.map_eq_some_iff.mp rule
    obtain ⟨rfl, rfl⟩ := Prod.mk.inj same
    obtain ⟨name, nameMember, rfl⟩ := List.mem_map.mp member
    exact productive declared (List.mem_of_getElem? found) name nameMember
  have spelled : declaration.table.spell? token = some (.terminal token.name) := rfl
  obtain ⟨trees, after, forest⟩ :=
    begins.exists_forest spelled rulesProductive (by simpa using startProductive)
  obtain ⟨tree, rfl⟩ := List.length_eq_one_iff.mp forest.length_eq
  exact ⟨_, after, means_start_iff.mpr ⟨tree, forest, rfl⟩⟩

end EarleyChart.Declaration
