import Mathlib.Data.List.Basic
import EarleyChart.Proofs.Language
import EarleyChart.Proofs.Nullability

/-!
Contract: what the grammar of a declaration is.

Building numbers the names of a declaration. `Grammar.Consistent` is what a parse relies on: the
tables of the grammar agree with its productions. `Declaration.Numbers` ties the grammar to the
declaration: symbols and names simulate each other, and the start production stands for the start
symbol, be it the only production of that symbol or the one that is put in front of it.
-/

namespace EarleyChart

namespace Grammar

/-- The productions of a grammar as rules. -/
def table (grammar : Grammar) : RuleTable SymbolId where
  rule? id := (grammar.production? id).map fun production => (production.lhs, production.rhs)
  spell? token := grammar.terminal? token.name

/-- The reducer of the production with a number. -/
def reducer? (grammar : Grammar) (id : ProductionId) : Option Reducer :=
  (grammar.production? id).bind Production.reducer

theorem rule?_of_production? {grammar : Grammar} {id : ProductionId} {production : Production}
    (found : grammar.production? id = some production) :
    grammar.table.rule? id = some (production.lhs, production.rhs) := by
  simp [table, found]

theorem production?_of_rule? {grammar : Grammar} {id : ProductionId} {lhs : SymbolId}
    {rhs : List SymbolId} (rule : grammar.table.rule? id = some (lhs, rhs)) :
    ∃ production, grammar.production? id = some production ∧ production.lhs = lhs ∧
      production.rhs = rhs := by
  obtain ⟨production, found, equal⟩ := Option.map_eq_some_iff.mp rule
  exact ⟨production, found, (Prod.mk.inj equal).1, (Prod.mk.inj equal).2⟩

theorem isTerminal_of_terminal? {grammar : Grammar} {name : String} {symbol : SymbolId}
    (found : grammar.terminal? name = some symbol) : grammar.isTerminal symbol = true :=
  (Option.filter_eq_some_iff.mp found).2

theorem name_of_terminal? {grammar : Grammar} {name : String} {symbol : SymbolId}
    (found : grammar.terminal? name = some symbol) : grammar.name symbol = name := by
  have first : grammar.symbols.findIdx? (·.name = name) = some symbol :=
    (Option.filter_eq_some_iff.mp found).1
  obtain ⟨inside, named, _⟩ := Array.findIdx?_eq_some_iff_getElem.mp first
  simpa [Grammar.name, Array.getElem?_eq_getElem inside] using named

/-- The tables of a grammar agree with its productions. -/
structure Consistent (grammar : Grammar) : Prop where
  startProduction : ∃ production, grammar.production? grammar.startProduction = some production
  listed : ∀ {symbol id}, id ∈ grammar.productionsFor symbol ↔
    ∃ production, grammar.production? id = some production ∧ production.lhs = symbol
  nonterminal : ∀ {id production}, grammar.production? id = some production →
    grammar.isTerminal production.lhs = false
  nullable : ∀ {symbol trees}, grammar.table.Forest [symbol] trees [] →
    grammar.isNullable symbol = true
  named : ∀ {id dot symbol}, grammar.symbolAt? id dot = some symbol →
    grammar.isTerminal symbol = true → grammar.terminal? (grammar.name symbol) = some symbol

end Grammar

namespace Declaration

variable {declaration : Declaration}

/-- What a declaration with a start symbol is once it has passed its check. -/
structure Checked (declaration : Declaration) (start : String) : Prop where
  leftNonterminal : ∀ rule ∈ declaration.rules, declaration.isTerminal rule.lhs = false
  unreserved : Grammar.acceptName ∉ declaration.names start
  startNonterminal : declaration.isTerminal start = false

/-- A check passes exactly if each of its tests does. -/
theorem check_eq_ok_iff {start : String} :
    declaration.check start = .ok () ↔
      (∀ rule ∈ declaration.rules, declaration.isTerminal rule.lhs = false) ∧
        Grammar.acceptName ∉ declaration.names start ∧
        declaration.isTerminal start = false ∧
        (∀ rule ∈ declaration.rules, declaration.undefinedIn? rule = none) ∧
        declaration.isDefined start = true := by
  unfold check
  simp only [bind, Except.bind]
  split
  next rule found =>
    have terminal : declaration.isTerminal rule.lhs = true := by
      simpa using List.find?_some found
    refine iff_of_false (fun passes => by cases passes) fun conditions => ?_
    rw [conditions.1 rule (List.mem_of_find?_eq_some found)] at terminal
    contradiction
  next noneFound =>
    have leftNonterminal : ∀ rule ∈ declaration.rules, declaration.isTerminal rule.lhs = false := by
      simpa using List.find?_eq_none.mp (Option.eq_none_iff_forall_ne_some.mpr noneFound)
    split
    next reserved =>
      exact iff_of_false (fun passes => by cases passes)
        fun conditions => conditions.2.1 (by simpa using reserved)
    next unreserved =>
      split
      next terminal =>
        refine iff_of_false (fun passes => by cases passes) fun conditions => ?_
        rw [conditions.2.2.1] at terminal
        contradiction
      next startNonterminal =>
        split
        next fault found =>
          obtain ⟨rule, member, undefined⟩ := List.exists_of_findSome?_eq_some found
          refine iff_of_false (fun passes => by cases passes) fun conditions => ?_
          rw [conditions.2.2.2.1 rule member] at undefined
          contradiction
        next noFault =>
          have resolved : ∀ rule ∈ declaration.rules, declaration.undefinedIn? rule = none :=
            List.findSome?_eq_none_iff.mp (Option.eq_none_iff_forall_ne_some.mpr noFault)
          split
          next undefined =>
            refine iff_of_false (fun passes => by cases passes) fun conditions => ?_
            rw [conditions.2.2.2.2] at undefined
            contradiction
          next defined =>
            exact iff_of_true rfl ⟨leftNonterminal, by simpa using unreserved,
              by simpa using startNonterminal, resolved, by simpa using defined⟩

theorem checked_of_check {start : String} (passes : declaration.check start = .ok ()) :
    declaration.Checked start := by
  obtain ⟨leftNonterminal, unreserved, startNonterminal, _⟩ := check_eq_ok_iff.mp passes
  exact ⟨leftNonterminal, unreserved, startNonterminal⟩

/-- What is built, and when. -/
theorem build_eq_ok_iff {grammar : Grammar} :
    declaration.build = .ok grammar ↔
      ∃ start, declaration.startName? = some start ∧ declaration.check start = .ok () ∧
        grammar = declaration.grammar start := by
  unfold build
  simp only [bind, Except.bind]
  cases named : declaration.startName? with
  | none => exact iff_of_false (fun built => by cases built) (by simp)
  | some start =>
      cases passes : declaration.check start with
      | error fault => simp [passes]
      | ok =>
          simp only [passes, Option.some.injEq, exists_eq_left', true_and]
          exact ⟨fun built => (Except.ok.inj built).symm, fun same => congrArg Except.ok same.symm⟩

theorem build_eq_ok {grammar : Grammar} (built : declaration.build = .ok grammar) :
    ∃ start, declaration.startName? = some start ∧ declaration.Checked start ∧
      grammar = declaration.grammar start := by
  obtain ⟨start, named, passes, isGrammar⟩ := build_eq_ok_iff.mp built
  exact ⟨start, named, checked_of_check passes, isGrammar⟩

section Names

variable {start : String}

theorem start_mem_names : start ∈ declaration.names start := by
  simp [names]

theorem terminal_mem_names {name : String} (terminal : declaration.isTerminal name = true) :
    name ∈ declaration.names start := by
  have declared : name ∈ declaration.terminals := by simpa [isTerminal] using terminal
  simp [names, declared]

theorem lhs_mem_names {rule : Rule} (member : rule ∈ declaration.rules) :
    rule.lhs ∈ declaration.names start := by
  simp only [names, List.mem_eraseDups, List.mem_append, List.mem_flatMap]
  exact .inl (.inr ⟨rule, member, by simp⟩)

theorem rhs_mem_names {rule : Rule} (member : rule ∈ declaration.rules) {name : String}
    (used : name ∈ rule.rhs) : name ∈ declaration.names start := by
  simp only [names, List.mem_eraseDups, List.mem_append, List.mem_flatMap]
  exact .inl (.inr ⟨rule, member, by simp [used]⟩)

end Names

theorem mem_productionsWith {productions : List Production} {symbol : SymbolId} {id : ProductionId} :
    id ∈ productionsWith productions symbol ↔
      ∃ production, productions[id]? = some production ∧ production.lhs = symbol := by
  simp [productionsWith, List.mem_zipIdx_iff_getElem?, and_comm]

section Assembly

variable {names : List String} {productions : List Production} {start : SymbolId}
  {startProduction : ProductionId}

/-- The symbols of an assembled grammar, by their place. -/
theorem symbols_assemble (symbol : SymbolId) :
    (declaration.assemble names productions start startProduction).symbols[symbol]? =
      (names[symbol]?).map fun name =>
        { name, terminal := declaration.isTerminal name,
          nullable := (Nullable.symbols productions).contains symbol,
          productions := productionsWith productions symbol } := by
  simp [assemble]

theorem production?_assemble (id : ProductionId) :
    (declaration.assemble names productions start startProduction).production? id =
      productions[id]? := by
  simp [assemble, Grammar.production?]

theorem symbol?_assemble {name : String} {symbol : SymbolId} :
    (declaration.assemble names productions start startProduction).symbol? name = some symbol ↔
      name ∈ names ∧ symbol = names.idxOf name := by
  have viaNames :
      (declaration.assemble names productions start startProduction).symbol? name = some symbol ↔
        names.idxOf? name = some symbol := by
    simp [assemble, Grammar.symbol?, List.findIdx?_eq_some_iff_getElem, List.idxOf?_eq_some_iff]
  rw [viaNames, List.idxOf?, List.findIdx?_eq_some_iff_findIdx_eq]
  change symbol < names.length ∧ names.idxOf name = symbol ↔ _
  constructor
  · intro parts
    obtain ⟨inside, rfl⟩ := parts
    exact ⟨List.idxOf_lt_length_iff.mp inside, rfl⟩
  · intro parts
    obtain ⟨member, rfl⟩ := parts
    exact ⟨List.idxOf_lt_length_iff.mpr member, rfl⟩

theorem isTerminal_assemble {name : String} (member : name ∈ names) :
    (declaration.assemble names productions start startProduction).isTerminal
      (names.idxOf name) = declaration.isTerminal name := by
  simp [Grammar.isTerminal, symbols_assemble, List.getElem?_idxOf member]

theorem terminal?_assemble {name : String} {symbol : SymbolId} :
    (declaration.assemble names productions start startProduction).terminal? name = some symbol ↔
      name ∈ names ∧ declaration.isTerminal name = true ∧ symbol = names.idxOf name := by
  rw [Grammar.terminal?, Option.filter_eq_some_iff, symbol?_assemble]
  constructor
  · intro parts
    obtain ⟨⟨member, rfl⟩, terminal⟩ := parts
    exact ⟨member, by rwa [isTerminal_assemble member] at terminal, rfl⟩
  · intro parts
    obtain ⟨member, terminal, rfl⟩ := parts
    exact ⟨⟨member, rfl⟩, by rwa [isTerminal_assemble member]⟩

/-- An assembled grammar is consistent if its productions only use its names, with nonterminals on
their left, and the start production is one of them. -/
theorem consistent_assemble
    (left : ∀ production ∈ productions,
      ∃ name, names[production.lhs]? = some name ∧ declaration.isTerminal name = false)
    (right : ∀ production ∈ productions, ∀ symbol ∈ production.rhs,
      ∃ name ∈ names, symbol = names.idxOf name)
    (started : ∃ production, productions[startProduction]? = some production) :
    (declaration.assemble names productions start startProduction).Consistent where
  startProduction := by
    obtain ⟨production, found⟩ := started
    exact ⟨production, (production?_assemble startProduction).trans found⟩
  listed := by
    intro symbol id
    simp only [production?_assemble, Grammar.productionsFor, symbols_assemble]
    cases present : names[symbol]? with
    | some name => simp [mem_productionsWith]
    | none =>
        simp only [Option.map_none, Option.getD_none, List.not_mem_nil, false_iff]
        intro parts
        obtain ⟨production, found, rfl⟩ := parts
        obtain ⟨name, named, _⟩ := left production (List.mem_of_getElem? found)
        rw [present] at named
        contradiction
  nonterminal := by
    intro id production found
    rw [production?_assemble] at found
    obtain ⟨name, named, nonterminal⟩ := left production (List.mem_of_getElem? found)
    simp [Grammar.isTerminal, symbols_assemble, named, nonterminal]
  nullable := by
    intro symbol trees forest
    have known : symbol ∈ Nullable.symbols productions := by
      refine Nullable.mem_of_forest ?_ (Nullable.closed_symbols productions) forest rfl symbol
        (List.mem_singleton_self symbol)
      intro id lhs rhs rule
      obtain ⟨production, found, sameLhs, sameRhs⟩ := Grammar.production?_of_rule? rule
      rw [production?_assemble] at found
      exact ⟨production, List.mem_of_getElem? found, sameLhs, sameRhs⟩
    have inside : ∃ name, names[symbol]? = some name := by
      rcases forest.single_cases with ⟨_, _, _, impossible⟩ | ⟨id, rhs, _, rule, _⟩
      · contradiction
      · obtain ⟨production, found, sameLhs, _⟩ := Grammar.production?_of_rule? rule
        rw [production?_assemble] at found
        obtain ⟨name, named, _⟩ := left production (List.mem_of_getElem? found)
        exact ⟨name, sameLhs ▸ named⟩
    obtain ⟨name, named⟩ := inside
    simp [Grammar.isNullable, symbols_assemble, named, known]
  named := by
    intro id dot symbol next terminal
    obtain ⟨production, found, used⟩ := Option.bind_eq_some_iff.mp next
    rw [production?_assemble] at found
    obtain ⟨name, member, rfl⟩ := right production (List.mem_of_getElem? found) symbol
      (List.mem_of_getElem? used)
    rw [isTerminal_assemble member] at terminal
    rw [terminal?_assemble]
    simp [Grammar.name, symbols_assemble, List.getElem?_idxOf member, member, terminal]

end Assembly

/-- A number stands for the symbol of a name. -/
def Denotes (declaration : Declaration) (start : String) (id : SymbolId)
    (symbol : Symbol String String) : Prop :=
  ∃ name ∈ declaration.names start,
    id = (declaration.names start).idxOf name ∧ symbol = declaration.symbol name

/-- A grammar that is built from a declaration, together with its start symbol. -/
structure Numbers (declaration : Declaration) (grammar : Grammar) (start : String) : Prop where
  startName : declaration.startName? = some start
  consistent : grammar.Consistent
  toNames : grammar.table.Simulates declaration.table (declaration.Denotes start)
  toNumbers : declaration.table.Simulates grammar.table
    fun symbol id => declaration.Denotes start id symbol
  startDenotes : declaration.Denotes start grammar.start (.nonterminal start)
  terminalDenotes : ∀ {name id}, grammar.terminal? name = some id ↔
    declaration.Denotes start id (.terminal name)
  reducers : grammar.reducer? = declaration.reducer?
  lengths : ∀ {id found}, grammar.production? id = some found →
    (∃ rule ∈ declaration.rules, found.rhs.length = rule.rhs.length) ∨ found.rhs.length = 1
  /-- The start production is the only one of the start symbol, or rewrites to that symbol and keeps
  its value. -/
  root : ∀ {production}, grammar.production? grammar.startProduction = some production →
    (production.lhs = grammar.start ∧ ∀ {id other}, grammar.production? id = some other →
        other.lhs = grammar.start → id = grammar.startProduction) ∨
      (production.rhs = [grammar.start] ∧ production.reducer = none)

theorem symbol_eq_terminal_iff {name text : String} :
    declaration.symbol name = .terminal text ↔ name = text ∧ declaration.isTerminal name = true := by
  unfold symbol
  split
  next terminal => simp [terminal]
  next nonterminal => simp [nonterminal]

theorem symbol_eq_nonterminal_iff {name text : String} :
    declaration.symbol name = .nonterminal text ↔
      name = text ∧ declaration.isTerminal name = false := by
  unfold symbol
  split
  next terminal => simp [terminal]
  next nonterminal => simp [nonterminal]

theorem Denotes.unique {start : String} {id : SymbolId} {first second : Symbol String String}
    (firstDenotes : declaration.Denotes start id first)
    (secondDenotes : declaration.Denotes start id second) : first = second := by
  obtain ⟨name, member, same, rfl⟩ := firstDenotes
  obtain ⟨other, _, rfl, rfl⟩ := secondDenotes
  rw [(List.idxOf_inj member).mp same.symm]

/-- The names of a right-hand side and their numbers stand for each other. -/
theorem denotes_rhs {start : String} {rule : Rule} (member : rule ∈ declaration.rules) :
    List.Forall₂ (declaration.Denotes start)
      (rule.rhs.map (declaration.names start).idxOf) (rule.rhs.map declaration.symbol) := by
  rw [List.forall₂_map_left_iff, List.forall₂_map_right_iff, List.forall₂_same]
  intro name used
  exact ⟨name, rhs_mem_names member used, rfl, rfl⟩

section Numbered

variable {start : String} {extraNames : List String} {extra : List Production}
  {startId : SymbolId} {startProduction : ProductionId}

/-- A grammar whose names and productions are those of a declaration and possibly more. -/
def assembleWith (declaration : Declaration) (start : String) (extraNames : List String)
    (extra : List Production) (startId : SymbolId) (startProduction : ProductionId) : Grammar :=
  declaration.assemble (declaration.names start ++ extraNames)
    (declaration.rules.map (production (declaration.names start)) ++ extra) startId startProduction

theorem terminalDenotes_assembleWith {name : String} {id : SymbolId} :
    (declaration.assembleWith start extraNames extra startId startProduction).terminal? name =
        some id ↔ declaration.Denotes start id (.terminal name) := by
  rw [assembleWith, terminal?_assemble]
  constructor
  · intro parts
    obtain ⟨_, terminal, rfl⟩ := parts
    have member : name ∈ declaration.names start := terminal_mem_names terminal
    exact ⟨name, member, List.idxOf_append_of_mem member,
      (symbol_eq_terminal_iff.mpr ⟨rfl, terminal⟩).symm⟩
  · intro parts
    obtain ⟨other, member, rfl, denoted⟩ := parts
    obtain ⟨rfl, terminal⟩ := symbol_eq_terminal_iff.mp denoted.symm
    exact ⟨List.mem_append_left _ member, terminal, (List.idxOf_append_of_mem member).symm⟩

theorem production?_assembleWith_of_rule {id : Nat} {rule : Rule}
    (found : declaration.rules[id]? = some rule) :
    (declaration.assembleWith start extraNames extra startId startProduction).production? id =
      some (production (declaration.names start) rule) := by
  obtain ⟨inside, rfl⟩ := List.getElem?_eq_some_iff.mp found
  rw [assembleWith, production?_assemble, List.getElem?_append_left (by simpa using inside)]
  simp [inside]

/-- A production of the grammar is that of a rule, or one of the further productions. -/
theorem production?_assembleWith_cases {id : Nat} {found : Production}
    (present : (declaration.assembleWith start extraNames extra startId startProduction).production?
      id = some found) :
    (∃ rule, declaration.rules[id]? = some rule ∧
        found = production (declaration.names start) rule) ∨
      declaration.rules.length ≤ id ∧ found ∈ extra := by
  rw [assembleWith, production?_assemble, List.getElem?_append] at present
  split at present
  next =>
    obtain ⟨rule, ruleFound, rfl⟩ := Option.map_eq_some_iff.mp (List.getElem?_map ▸ present)
    exact .inl ⟨rule, ruleFound, rfl⟩
  next outside =>
    exact .inr ⟨by simpa using outside, List.mem_of_getElem? present⟩

theorem toNumbers_assembleWith :
    declaration.table.Simulates
      (declaration.assembleWith start extraNames extra startId startProduction).table
      fun symbol id => declaration.Denotes start id symbol where
  spell := by
    intro token symbol id spelled denotes
    obtain rfl : .terminal token.name = symbol := Option.some.inj spelled
    exact terminalDenotes_assembleWith.mpr denotes
  rule := by
    intro id lhs rhs image rule denotes
    obtain ⟨declared, found, equal⟩ := Option.map_eq_some_iff.mp rule
    obtain ⟨rfl, rfl⟩ := Prod.mk.inj equal
    obtain ⟨name, _, rfl, denoted⟩ := denotes
    obtain ⟨rfl, _⟩ := symbol_eq_nonterminal_iff.mp denoted.symm
    refine ⟨_, Grammar.rule?_of_production? (production?_assembleWith_of_rule found), ?_⟩
    exact (denotes_rhs (List.mem_of_getElem? found)).flip

theorem toNames_assembleWith (checked : declaration.Checked start)
    (outside : ∀ production ∈ extra, (declaration.names start).length ≤ production.lhs) :
    (declaration.assembleWith start extraNames extra startId startProduction).table.Simulates
      declaration.table (declaration.Denotes start) where
  spell := by
    intro token id symbol spelled denotes
    rw [denotes.unique (terminalDenotes_assembleWith.mp spelled)]
    rfl
  rule := by
    intro id lhs rhs image rule denotes
    obtain ⟨found, present, rfl, rfl⟩ := Grammar.production?_of_rule? rule
    obtain ⟨name, member, numbered, rfl⟩ := denotes
    rcases production?_assembleWith_cases present with ⟨declared, declaredAt, rfl⟩ | ⟨_, isExtra⟩
    · have declaredMember := List.mem_of_getElem? declaredAt
      have sameName : declared.lhs = name :=
        (List.idxOf_inj (lhs_mem_names declaredMember)).mp numbered
      have nonterminal : declaration.symbol name = .nonterminal declared.lhs :=
        symbol_eq_nonterminal_iff.mpr
          ⟨sameName.symm, sameName ▸ checked.leftNonterminal declared declaredMember⟩
      refine ⟨declared.rhs.map declaration.symbol, ?_, denotes_rhs declaredMember⟩
      simp only [table, declaredAt, Option.map_some, nonterminal]
    · -- The further productions rewrite symbols that have no name in the declaration.
      have numberedBelow := List.idxOf_lt_length_iff.mpr member
      have numberedAbove := outside found isExtra
      rw [numbered] at numberedAbove
      omega

/-- Reducers are those of the rules; further productions without a reducer add none. -/
theorem reducer?_assembleWith (plain : ∀ production ∈ extra, production.reducer = none) :
    (declaration.assembleWith start extraNames extra startId startProduction).reducer? =
      declaration.reducer? := by
  funext id
  unfold Grammar.reducer? reducer?
  cases found : declaration.rules[id]? with
  | some rule =>
      rw [production?_assembleWith_of_rule found]
      rfl
  | none =>
      cases present :
          (declaration.assembleWith start extraNames extra startId startProduction).production? id with
      | none => rfl
      | some production =>
          rcases production?_assembleWith_cases present with ⟨rule, ruleFound, _⟩ | ⟨_, isExtra⟩
          · rw [found] at ruleFound
            contradiction
          · simpa using plain production isExtra

theorem lengths_assembleWith (unit : ∀ production ∈ extra, production.rhs.length = 1) {id : Nat}
    {found : Production}
    (present : (declaration.assembleWith start extraNames extra startId startProduction).production?
      id = some found) :
    (∃ rule ∈ declaration.rules, found.rhs.length = rule.rhs.length) ∨ found.rhs.length = 1 := by
  rcases production?_assembleWith_cases present with ⟨rule, ruleFound, rfl⟩ | ⟨_, isExtra⟩
  · exact .inl ⟨rule, List.mem_of_getElem? ruleFound, by simp [production]⟩
  · exact .inr (unit found isExtra)

theorem consistent_assembleWith (checked : declaration.Checked start)
    (left : ∀ production ∈ extra, ∃ name,
      (declaration.names start ++ extraNames)[production.lhs]? = some name ∧
        declaration.isTerminal name = false)
    (right : ∀ production ∈ extra, ∀ symbol ∈ production.rhs,
      ∃ name ∈ declaration.names start, symbol = (declaration.names start).idxOf name)
    (started : ∃ production,
      (declaration.assembleWith start extraNames extra startId startProduction).production?
        startProduction = some production) :
    (declaration.assembleWith start extraNames extra startId startProduction).Consistent := by
  refine consistent_assemble ?_ ?_ ?_
  · intro found member
    rcases List.mem_append.mp member with numbered | isExtra
    · obtain ⟨rule, ruleMember, rfl⟩ := List.mem_map.mp numbered
      have named : rule.lhs ∈ declaration.names start := lhs_mem_names ruleMember
      refine ⟨rule.lhs, ?_, checked.leftNonterminal rule ruleMember⟩
      change (declaration.names start ++ extraNames)[(declaration.names start).idxOf rule.lhs]? = _
      rw [List.getElem?_append_left (List.idxOf_lt_length_iff.mpr named)]
      exact List.getElem?_idxOf named
    · exact left found isExtra
  · intro found member symbol used
    have named : ∃ name ∈ declaration.names start,
        symbol = (declaration.names start).idxOf name := by
      rcases List.mem_append.mp member with numbered | isExtra
      · obtain ⟨rule, ruleMember, rfl⟩ := List.mem_map.mp numbered
        obtain ⟨name, nameUsed, rfl⟩ := List.mem_map.mp used
        exact ⟨name, rhs_mem_names ruleMember nameUsed, rfl⟩
      · exact right found isExtra symbol used
    obtain ⟨name, nameMember, rfl⟩ := named
    exact ⟨name, List.mem_append_left _ nameMember, (List.idxOf_append_of_mem nameMember).symm⟩
  · rwa [assembleWith, production?_assemble] at started

end Numbered

theorem start_denotes {start : String} (checked : declaration.Checked start) :
    declaration.Denotes start ((declaration.names start).idxOf start) (.nonterminal start) :=
  ⟨start, start_mem_names, rfl,
    (symbol_eq_nonterminal_iff.mpr ⟨rfl, checked.startNonterminal⟩).symm⟩

/-- A start symbol with one production: the parse starts with that production. -/
theorem numbers_of_single {start : String} {only : ProductionId}
    (startName : declaration.startName? = some start) (checked : declaration.Checked start)
    (single : productionsWith (declaration.rules.map (production (declaration.names start)))
      ((declaration.names start).idxOf start) = [only]) :
    declaration.Numbers
      (declaration.assembleWith start [] [] ((declaration.names start).idxOf start) only) start := by
  have present (id : ProductionId) : (declaration.assembleWith start [] []
      ((declaration.names start).idxOf start) only).production? id =
        (declaration.rules.map (production (declaration.names start)))[id]? := by
    rw [assembleWith, production?_assemble, List.append_nil]
  have listed (id : ProductionId) : id = only ↔ ∃ found,
      (declaration.rules.map (production (declaration.names start)))[id]? = some found ∧
        found.lhs = (declaration.names start).idxOf start := by
    rw [← mem_productionsWith, single, List.mem_singleton]
  obtain ⟨onlyProduction, onlyFound, onlyLhs⟩ := (listed only).mp rfl
  refine ⟨startName,
    consistent_assembleWith checked (by simp) (by simp) ⟨_, (present only).trans onlyFound⟩,
    toNames_assembleWith checked (by simp), toNumbers_assembleWith, start_denotes checked,
    terminalDenotes_assembleWith, reducer?_assembleWith (by simp),
    lengths_assembleWith (by simp), ?_⟩
  intro found foundPresent
  have foundOnly : some onlyProduction = some found :=
    onlyFound.symm.trans ((present only).symm.trans foundPresent)
  refine .inl ⟨Option.some.inj foundOnly ▸ onlyLhs, ?_⟩
  intro id other otherPresent otherLhs
  exact (listed id).mpr ⟨other, (present id).symm.trans otherPresent, otherLhs⟩

/-- The production that is put in front of a start symbol. -/
def acceptProduction (declaration : Declaration) (start : String) : Production where
  lhs := (declaration.names start).length
  rhs := [(declaration.names start).idxOf start]
  reducer := none

/-- A start symbol with several productions: the parse starts in front of it. -/
theorem numbers_of_accept {start : String} (startName : declaration.startName? = some start)
    (checked : declaration.Checked start) :
    declaration.Numbers
      (declaration.assembleWith start [Grammar.acceptName] [declaration.acceptProduction start]
        ((declaration.names start).idxOf start)
        (declaration.rules.map (production (declaration.names start))).length) start := by
  have present : (declaration.assembleWith start [Grammar.acceptName]
      [declaration.acceptProduction start] ((declaration.names start).idxOf start)
      (declaration.rules.map (production (declaration.names start))).length).production?
        (declaration.rules.map (production (declaration.names start))).length =
      some (declaration.acceptProduction start) := by
    rw [assembleWith, production?_assemble, List.getElem?_concat_length]
  have nonterminal : declaration.isTerminal Grammar.acceptName = false := by
    by_contra terminal
    exact checked.unreserved (terminal_mem_names (by simpa using terminal))
  refine ⟨startName, consistent_assembleWith checked ?_ ?_ ⟨_, present⟩,
    toNames_assembleWith checked (by simp [acceptProduction]), toNumbers_assembleWith,
    start_denotes checked, terminalDenotes_assembleWith,
    reducer?_assembleWith (by simp [acceptProduction]),
    lengths_assembleWith (by simp [acceptProduction]), ?_⟩
  · simp [acceptProduction, nonterminal]
  · simpa [acceptProduction] using ⟨start, start_mem_names, rfl⟩
  · intro found foundPresent
    obtain rfl := Option.some.inj (present.symm.trans foundPresent)
    exact .inr ⟨rfl, rfl⟩

/-- The grammar that is built numbers the declaration. -/
theorem numbers_of_build {grammar : Grammar} (built : declaration.build = .ok grammar) :
    ∃ start, declaration.Numbers grammar start := by
  obtain ⟨start, startName, checked, rfl⟩ := build_eq_ok built
  refine ⟨start, ?_⟩
  unfold Declaration.grammar
  dsimp only
  split
  next only single =>
    simpa only [assembleWith, List.append_nil] using numbers_of_single startName checked single
  next => exact numbers_of_accept startName checked

namespace Numbers

variable {grammar : Grammar} {start : String} {production : Production} {tokens : List Token}

theorem isDerivation_iff (numbers : declaration.Numbers grammar start) {tree : Tree} :
    declaration.IsDerivation tree tokens ↔ grammar.table.Forest [grammar.start] [tree] tokens := by
  unfold IsDerivation
  rw [numbers.startName]
  constructor
  · intro forest
    exact numbers.toNumbers.forest forest (.cons numbers.startDenotes .nil)
  · intro forest
    exact numbers.toNames.forest forest (.cons numbers.startDenotes .nil)

/-- What the start production matches is derived from the start symbol, with the same value. -/
theorem derivation_of_forest (numbers : declaration.Numbers grammar start)
    (found : grammar.production? grammar.startProduction = some production) {children : List Tree}
    (forest : grammar.table.Forest production.rhs children tokens) :
    ∃ tree, declaration.IsDerivation tree tokens ∧
      tree.value declaration.reducer? =
        production.reduce (Tree.values grammar.reducer? children) := by
  rw [← numbers.reducers]
  rcases numbers.root found with ⟨isStart, _⟩ | ⟨isUnit, plain⟩
  · refine ⟨.node grammar.startProduction children, ?_, ?_⟩
    · rw [numbers.isDerivation_iff, ← isStart]
      exact .single_node (Grammar.rule?_of_production? found) forest
    · simp [Tree.value, Grammar.reducer?, found, Production.reduce]
  · rw [isUnit] at forest
    obtain ⟨tree, rfl⟩ := List.length_eq_one_iff.mp forest.length_eq
    refine ⟨tree, numbers.isDerivation_iff.mpr forest, ?_⟩
    simp [Production.reduce, plain, Reducer.reduce, Tree.values, defaultReduce]

/-- Where the start symbol has one production only, what it derives is a node of that production. -/
theorem node_of_derivation (numbers : declaration.Numbers grammar start)
    (found : grammar.production? grammar.startProduction = some production)
    (isStart : production.lhs = grammar.start)
    (unique : ∀ {id other}, grammar.production? id = some other → other.lhs = grammar.start →
      id = grammar.startProduction)
    {tree : Tree} (derivation : declaration.IsDerivation tree tokens) :
    ∃ children, tree = .node grammar.startProduction children ∧
      grammar.table.Forest production.rhs children tokens := by
  have forest := numbers.isDerivation_iff.mp derivation
  rcases forest.single_cases with ⟨token, spelled, _⟩ | ⟨id, rhs, children, rule, single, inner⟩
  · have terminal := Grammar.isTerminal_of_terminal? spelled
    rw [← isStart, numbers.consistent.nonterminal found] at terminal
    contradiction
  · obtain ⟨other, otherFound, otherLhs, rfl⟩ := Grammar.production?_of_rule? rule
    obtain rfl := unique otherFound otherLhs
    obtain rfl := Option.some.inj (found.symm.trans otherFound)
    exact ⟨children, List.singleton_inj.mp single, inner⟩

/-- What the start symbol derives is matched by the start production. -/
theorem forest_of_derivation (numbers : declaration.Numbers grammar start)
    (found : grammar.production? grammar.startProduction = some production) {tree : Tree}
    (derivation : declaration.IsDerivation tree tokens) :
    ∃ children, grammar.table.Forest production.rhs children tokens := by
  rcases numbers.root found with ⟨isStart, unique⟩ | ⟨isUnit, _⟩
  · obtain ⟨children, _, inner⟩ := numbers.node_of_derivation found isStart unique derivation
    exact ⟨children, inner⟩
  · rw [isUnit]
    exact ⟨[tree], numbers.isDerivation_iff.mp derivation⟩

/-- Where the start production matches the tokens in one way only, they have one derivation. -/
theorem derivation_unique (numbers : declaration.Numbers grammar start)
    (found : grammar.production? grammar.startProduction = some production)
    (only : ∀ {first second}, grammar.table.Forest production.rhs first tokens →
      grammar.table.Forest production.rhs second tokens → first = second)
    {tree other : Tree} (derivation : declaration.IsDerivation tree tokens)
    (otherDerivation : declaration.IsDerivation other tokens) : tree = other := by
  rcases numbers.root found with ⟨isStart, unique⟩ | ⟨isUnit, _⟩
  · obtain ⟨children, rfl, inner⟩ := numbers.node_of_derivation found isStart unique derivation
    obtain ⟨others, rfl, otherInner⟩ :=
      numbers.node_of_derivation found isStart unique otherDerivation
    rw [only inner otherInner]
  · rw [isUnit] at only
    exact List.singleton_inj.mp
      (only (numbers.isDerivation_iff.mp derivation) (numbers.isDerivation_iff.mp otherDerivation))

/-- The start symbol expects a terminal where the start production does. -/
theorem begins_iff (numbers : declaration.Numbers grammar start)
    (found : grammar.production? grammar.startProduction = some production) {name : String} :
    declaration.table.Begins (.terminal name)
        [.nonterminal (declaration.startName?.getD "")] tokens ↔
      ∃ id, grammar.terminal? name = some id ∧ grammar.table.Begins id production.rhs tokens := by
  rw [numbers.startName]
  constructor
  · intro begins
    obtain ⟨id, denotes, expected⟩ :=
      numbers.toNumbers.begins begins (.cons numbers.startDenotes .nil)
    have spelled := numbers.terminalDenotes.mpr denotes
    refine ⟨id, spelled, ?_⟩
    rcases numbers.root found with ⟨isStart, unique⟩ | ⟨isUnit, _⟩
    · rcases expected.single_cases with ⟨rfl, _⟩ | ⟨other, rhs, rule, inner⟩
      · have terminal := Grammar.isTerminal_of_terminal? spelled
        rw [← isStart, numbers.consistent.nonterminal found] at terminal
        contradiction
      · obtain ⟨otherProduction, otherFound, otherLhs, rfl⟩ := Grammar.production?_of_rule? rule
        obtain rfl := unique otherFound otherLhs
        obtain rfl := Option.some.inj (found.symm.trans otherFound)
        exact inner
    · rw [isUnit]
      exact expected
  · intro parts
    obtain ⟨id, spelled, inner⟩ := parts
    have expected : grammar.table.Begins id [grammar.start] tokens := by
      rcases numbers.root found with ⟨isStart, _⟩ | ⟨isUnit, _⟩
      · rw [← isStart]
        exact .into (Grammar.rule?_of_production? found) inner
      · rwa [isUnit] at inner
    obtain ⟨symbol, denotes, begins⟩ :=
      numbers.toNames.begins expected (.cons numbers.startDenotes .nil)
    rwa [denotes.unique (numbers.terminalDenotes.mp spelled)] at begins

end Numbers

end Declaration

end EarleyChart
