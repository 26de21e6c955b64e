import EarleyChart.Document.Language
import EarleyChart.Proofs.Meaning

/-!
Contract: the documents that tokens spell, one token at a time.

`Spells` is what the rules of documents make of the tokens of a value. Its equation `spells_iff` and
those of the items of an array and of the entries of an object are put so that the next token alone
decides how to go on: what two rules begin with is read once, before they part.
-/

namespace EarleyChart.Document

open Declaration

/-- The tokens spell a value. -/
def Spells (value : Value) (tokens : List Token) : Prop :=
  declaration.Means [.nonterminal "expr"] [value] tokens

/-- The tokens spell the elements of a list and the token that closes it. -/
def SpellsList (list close : String) (elements : List Value) (tokens : List Token) : Prop :=
  ∃ closing, declaration.Means [.nonterminal list, .terminal close]
    [.array elements, .token closing] tokens

/-- The tokens spell the items of an array and its closing bracket. -/
def SpellsItems : List Value → List Token → Prop :=
  SpellsList "array_items" "right_bracket"

/-- Adds entries in order to those of a map. -/
def addEntries (before entries : List (String × Value)) : List (String × Value) :=
  entries.foldl (fun sorted entry => Value.insertEntry entry.1 entry.2 sorted) before

/-- The tokens spell entries of an object and its closing brace. With the entries before them they
make up the map. -/
def SpellsEntries (before : List (String × Value)) (value : Value) (tokens : List Token) : Prop :=
  ∃ pairs, SpellsList "object_entry_list" "right_brace" pairs tokens ∧
    value = .map (addEntries before (pairs.filterMap Value.toEntry?))

/-- The value that a token spells alone. -/
def scalar? (token : Token) : Option Value :=
  match token.name with
  | "number" => some ((Action.number 0).apply [.token token])
  | "string" => some (.string (Literal.unquote token.text))
  | "true" => some (.bool true)
  | "false" => some (.bool false)
  | "null" => some .nil
  | _ => none

/-- The ways to spell a value. -/
inductive ValueShape : Value → List Token → Prop where
  | scalar {token : Token} {value : Value} (alone : scalar? token = some value) :
      ValueShape value [token]
  | emptyArray {opening closing : Token} (named : opening.name = "left_bracket")
      (closed : closing.name = "right_bracket") : ValueShape (.array []) [opening, closing]
  | array {opening : Token} {items : List Value} {rest : List Token}
      (named : opening.name = "left_bracket") (inner : SpellsItems items rest) :
      ValueShape (.array items) (opening :: rest)
  | emptyObject {opening closing : Token} (named : opening.name = "left_brace")
      (closed : closing.name = "right_brace") : ValueShape (.map []) [opening, closing]
  | object {opening : Token} {value : Value} {rest : List Token}
      (named : opening.name = "left_brace") (inner : SpellsEntries [] value rest) :
      ValueShape value (opening :: rest)

/-- The ways to go on after an element of a list. -/
inductive AfterElement (list close : String) (first : Value) : List Value → List Token → Prop where
  | more {comma : Token} {others : List Value} {rest : List Token} (named : comma.name = "comma")
      (further : SpellsList list close others rest) :
      AfterElement list close first (first :: others) (comma :: rest)
  | last {closing : Token} (named : closing.name = close) :
      AfterElement list close first [first] [closing]

/-- The ways to go on after an entry of an object. -/
inductive AfterEntry (entries : List (String × Value)) : Value → List Token → Prop where
  | more {comma : Token} {value : Value} {rest : List Token} (named : comma.name = "comma")
      (further : SpellsEntries entries value rest) : AfterEntry entries value (comma :: rest)
  | last {closing : Token} (named : closing.name = "right_brace") :
      AfterEntry entries (.map entries) [closing]

/-- The ways to go on after the colon of an entry. -/
def AfterColon (before : List (String × Value)) (key : String) (value : Value)
    (tokens : List Token) : Prop :=
  ∃ item covered rest, Spells item covered ∧
    AfterEntry (Value.insertEntry key item before) value rest ∧ tokens = covered ++ rest

/-- The ways to go on after the key of an entry. -/
def AfterKey (before : List (String × Value)) (key : String) (value : Value)
    (tokens : List Token) : Prop :=
  ∃ colon rest, colon.name = "colon" ∧ AfterColon before key value rest ∧ tokens = colon :: rest

section Tails

variable {list close : String} {first : Value} {elements : List Value}
  {entries : List (String × Value)} {value : Value} {token : Token} {rest : List Token}

theorem afterElement_comma (isComma : token.name = "comma") (different : close ≠ "comma") :
    AfterElement list close first elements (token :: rest) ↔
      ∃ others, SpellsList list close others rest ∧ elements = first :: others := by
  constructor
  · intro after
    cases after with
    | more _ further => exact ⟨_, further, rfl⟩
    | last named => exact absurd (named.symm.trans isComma) different
  · intro spells
    obtain ⟨others, further, rfl⟩ := spells
    exact .more isComma further

theorem afterElement_close (isClose : token.name = close) (different : close ≠ "comma") :
    AfterElement list close first elements (token :: rest) ↔ elements = [first] ∧ rest = [] := by
  constructor
  · intro after
    cases after with
    | more named _ => exact absurd (isClose.symm.trans named) different
    | last _ => exact ⟨rfl, rfl⟩
  · intro ended
    obtain ⟨rfl, rfl⟩ := ended
    exact .last isClose

theorem afterEntry_comma (isComma : token.name = "comma") :
    AfterEntry entries value (token :: rest) ↔ SpellsEntries entries value rest := by
  constructor
  · intro after
    cases after with
    | more _ further => exact further
    | last named => simp [isComma] at named
  · intro further
    exact .more isComma further

theorem afterEntry_close (isClose : token.name = "right_brace") :
    AfterEntry entries value (token :: rest) ↔ value = .map entries ∧ rest = [] := by
  constructor
  · intro after
    cases after with
    | more named _ => simp [isClose] at named
    | last _ => exact ⟨rfl, rfl⟩
  · intro ended
    obtain ⟨rfl, rfl⟩ := ended
    exact .last isClose

end Tails

section Rules

theorem rulesOf_start : declaration.rulesOf "start" = [(0, [.nonterminal "expr"])] := rfl

theorem rulesOf_expr : declaration.rulesOf "expr" =
    [(1, [.nonterminal "array"]), (2, [.nonterminal "object"]), (3, [.nonterminal "boolean"]),
     (4, [.terminal "number"]), (5, [.terminal "string"]), (6, [.terminal "null"])] := rfl

theorem rulesOf_boolean : declaration.rulesOf "boolean" =
    [(7, [.terminal "true"]), (8, [.terminal "false"])] := rfl

theorem rulesOf_object : declaration.rulesOf "object" =
    [(9, [.terminal "left_brace", .nonterminal "object_entry_list", .terminal "right_brace"]),
     (10, [.terminal "left_brace", .terminal "right_brace"])] := rfl

theorem rulesOf_entryList : declaration.rulesOf "object_entry_list" =
    [(11, [.nonterminal "object_entry", .terminal "comma", .nonterminal "object_entry_list"]),
     (12, [.nonterminal "object_entry"])] := rfl

theorem rulesOf_entry : declaration.rulesOf "object_entry" =
    [(13, [.terminal "string", .terminal "colon", .nonterminal "expr"])] := rfl

theorem rulesOf_array : declaration.rulesOf "array" =
    [(14, [.terminal "left_bracket", .nonterminal "array_items", .terminal "right_bracket"]),
     (15, [.terminal "left_bracket", .terminal "right_bracket"])] := rfl

theorem rulesOf_items : declaration.rulesOf "array_items" =
    [(16, [.nonterminal "expr", .terminal "comma", .nonterminal "array_items"]),
     (17, [.nonterminal "expr"])] := rfl

end Rules

variable {value : Value} {tokens : List Token}

/-- A document is a value. -/
theorem means_start_iff_spells :
    declaration.Means [.nonterminal "start"] [value] tokens ↔ Spells value tokens := by
  rw [means_nonterminal, rulesOf_start]
  constructor
  · intro parts
    obtain ⟨id, rhs, children, member, means, rfl⟩ := parts
    obtain ⟨rfl, rfl⟩ := Prod.mk.inj (List.mem_singleton.mp member)
    obtain ⟨child, rfl⟩ := exists_value_of_means means
    exact means
  · intro spells
    exact ⟨0, _, [value], List.mem_singleton_self _, spells, rfl⟩

section Lists

variable {list element close : String} {further single : Nat}

/-- The rules of a list whose elements stand between commas. -/
structure ListRules (list element : String) (further single : Nat) : Prop where
  rules : declaration.rulesOf list =
    [(further, [.nonterminal element, .terminal "comma", .nonterminal list]),
     (single, [.nonterminal element])]
  cons : declaration.reducer? further = some (.builtin (.cons 0 2))
  singleton : declaration.reducer? single = some (.builtin (.singleton 0))

/-- The value of a list is an array. -/
theorem ListRules.exists_elements (listed : ListRules list element further single)
    (means : declaration.Means [.nonterminal list] [value] tokens) :
    ∃ elements, value = .array elements := by
  obtain ⟨id, rhs, children, member, _, rfl⟩ := means_nonterminal.mp means
  rw [listed.rules] at member
  rcases List.mem_cons.mp member with isFurther | isSingle
  · obtain ⟨rfl, _⟩ := Prod.mk.inj isFurther
    rw [listed.cons]
    exact ⟨_, rfl⟩
  · obtain ⟨rfl, _⟩ := Prod.mk.inj (List.mem_singleton.mp isSingle)
    rw [listed.singleton]
    exact ⟨_, rfl⟩

/-- A list is an element and, after a comma, the elements of a list, or an element alone. -/
theorem ListRules.means_iff (listed : ListRules list element further single) :
    declaration.Means [.nonterminal list] [value] tokens ↔
      (∃ first comma others covered rest, declaration.Means [.nonterminal element] [first] covered ∧
          comma.name = "comma" ∧ declaration.Means [.nonterminal list] [.array others] rest ∧
          value = .array (first :: others) ∧ tokens = covered ++ comma :: rest) ∨
        ∃ first, declaration.Means [.nonterminal element] [first] tokens ∧
          value = .array [first] := by
  rw [means_nonterminal, listed.rules]
  constructor
  · intro parts
    obtain ⟨id, rhs, children, member, means, rfl⟩ := parts
    rcases List.mem_cons.mp member with isFurther | isSingle
    · obtain ⟨rfl, rfl⟩ := Prod.mk.inj isFurther
      obtain ⟨first, _, covered, _, firstMeans, afterFirst, rfl, rfl⟩ := means_cons_iff.mp means
      obtain ⟨comma, _, rest, named, rfl, rfl, afterComma⟩ := means_terminal_cons.mp afterFirst
      obtain ⟨other, rfl⟩ := exists_value_of_means afterComma
      obtain ⟨others, rfl⟩ := listed.exists_elements afterComma
      rw [listed.cons]
      exact .inl ⟨first, comma, others, covered, rest, firstMeans, named, afterComma, rfl, rfl⟩
    · obtain ⟨rfl, rfl⟩ := Prod.mk.inj (List.mem_singleton.mp isSingle)
      obtain ⟨first, rfl⟩ := exists_value_of_means means
      rw [listed.singleton]
      exact .inr ⟨first, means, rfl⟩
  · intro shapes
    rcases shapes with
      ⟨first, comma, others, covered, rest, firstMeans, named, means, rfl, rfl⟩ | ⟨first, means, rfl⟩
    · refine ⟨further, _, [first, .token comma, .array others], List.mem_cons_self, ?_, ?_⟩
      · exact means_cons_iff.mpr ⟨first, _, covered, _, firstMeans,
          means_terminal_cons.mpr ⟨comma, _, rest, named, rfl, rfl, means⟩, rfl, rfl⟩
      · rw [listed.cons]
        rfl
    · refine ⟨single, _, [first], List.mem_cons_of_mem _ (List.mem_singleton_self _), means, ?_⟩
      rw [listed.singleton]
      rfl

/-- A closed list by its first element and what comes after it. -/
theorem ListRules.spells_iff (listed : ListRules list element further single)
    {elements : List Value} :
    SpellsList list close elements tokens ↔
      ∃ first covered rest, declaration.Means [.nonterminal element] [first] covered ∧
        AfterElement list close first elements rest ∧ tokens = covered ++ rest := by
  constructor
  · intro spells
    obtain ⟨closing, means⟩ := spells
    obtain ⟨value, others, covering, rest, listMeans, closeMeans, valued, rfl⟩ :=
      means_cons_iff.mp means
    obtain ⟨rfl, rfl⟩ := List.cons.inj valued
    obtain ⟨token, named, _, rfl⟩ := means_terminal.mp closeMeans
    rcases listed.means_iff.mp listMeans with
      ⟨first, comma, others, covered, rest, firstMeans, commaNamed, afterComma, valued, rfl⟩ |
        ⟨first, firstMeans, valued⟩
    · obtain rfl := Value.array.inj valued
      have furtherSpells : SpellsList list close others (rest ++ [token]) :=
        ⟨token, means_cons_iff.mpr ⟨_, _, rest, [token], afterComma,
          means_terminal.mpr ⟨token, named, rfl, rfl⟩, rfl, rfl⟩⟩
      exact ⟨first, covered, comma :: (rest ++ [token]), firstMeans,
        .more commaNamed furtherSpells, by simp⟩
    · obtain rfl := Value.array.inj valued
      exact ⟨first, covering, [token], firstMeans, .last named, rfl⟩
  · intro parts
    obtain ⟨first, covered, rest, firstMeans, after, rfl⟩ := parts
    cases after with
    | @more comma others rest named furtherSpells =>
        obtain ⟨closing, means⟩ := furtherSpells
        obtain ⟨value, _, covering, last, listMeans, closeMeans, valued, rfl⟩ :=
          means_cons_iff.mp means
        obtain ⟨rfl, rfl⟩ := List.cons.inj valued
        have wholeMeans := listed.means_iff.mpr (.inl
          ⟨first, comma, others, covered, covering, firstMeans, named, listMeans, rfl, rfl⟩)
        exact ⟨closing, means_cons_iff.mpr ⟨_, _, _, last, wholeMeans, closeMeans, rfl, by simp⟩⟩
    | @last closing named =>
        have wholeMeans := listed.means_iff.mpr
          (.inr ⟨first, firstMeans, rfl⟩)
        exact ⟨closing, means_cons_iff.mpr ⟨_, _, covered, [closing], wholeMeans,
          means_terminal.mpr ⟨closing, named, rfl, rfl⟩, rfl, rfl⟩⟩

end Lists

theorem itemRules : ListRules "array_items" "expr" 16 17 :=
  ⟨rulesOf_items, rfl, rfl⟩

theorem entryRules : ListRules "object_entry_list" "object_entry" 11 12 :=
  ⟨rulesOf_entryList, rfl, rfl⟩

theorem spellsItems_iff {items : List Value} :
    SpellsItems items tokens ↔
      ∃ item covered rest, Spells item covered ∧
        AfterElement "array_items" "right_bracket" item items rest ∧ tokens = covered ++ rest :=
  itemRules.spells_iff

/-- An entry is a text, a colon and a value, which it pairs. -/
theorem means_entry_iff :
    declaration.Means [.nonterminal "object_entry"] [value] tokens ↔
      ∃ key colon item rest, key.name = "string" ∧ colon.name = "colon" ∧ Spells item rest ∧
        value = .array [.token key, item] ∧ tokens = key :: colon :: rest := by
  rw [means_nonterminal, rulesOf_entry]
  constructor
  · intro parts
    obtain ⟨id, rhs, children, member, means, rfl⟩ := parts
    obtain ⟨rfl, rfl⟩ := Prod.mk.inj (List.mem_singleton.mp member)
    obtain ⟨key, _, _, keyNamed, rfl, rfl, afterKey⟩ := means_terminal_cons.mp means
    obtain ⟨colon, _, rest, colonNamed, rfl, rfl, afterColon⟩ := means_terminal_cons.mp afterKey
    obtain ⟨item, rfl⟩ := exists_value_of_means afterColon
    exact ⟨key, colon, item, rest, keyNamed, colonNamed, afterColon, rfl, rfl⟩
  · intro parts
    obtain ⟨key, colon, item, rest, keyNamed, colonNamed, spells, rfl, rfl⟩ := parts
    refine ⟨13, _, [.token key, .token colon, item], List.mem_singleton_self _, ?_, rfl⟩
    exact means_terminal_cons.mpr ⟨key, _, _, keyNamed, rfl, rfl,
      means_terminal_cons.mpr ⟨colon, _, rest, colonNamed, rfl, rfl, spells⟩⟩

/-- The entries of an object by the first key and what comes after it. -/
theorem spellsEntries_iff {before : List (String × Value)} :
    SpellsEntries before value tokens ↔
      ∃ key rest, key.name = "string" ∧ AfterKey before (Literal.unquote key.text) value rest ∧
        tokens = key :: rest := by
  constructor
  · intro spells
    obtain ⟨pairs, listed, rfl⟩ := spells
    obtain ⟨pair, _, rest, entry, after, rfl⟩ := entryRules.spells_iff.mp listed
    obtain ⟨key, colon, item, covered, keyNamed, colonNamed, spells, rfl, rfl⟩ :=
      means_entry_iff.mp entry
    refine ⟨key, _, keyNamed, ⟨colon, _, colonNamed, ⟨item, covered, rest, spells, ?_, rfl⟩, rfl⟩, rfl⟩
    cases after with
    | more named further => exact .more named ⟨_, further, rfl⟩
    | last named => exact .last named
  · intro parts
    obtain ⟨key, _, keyNamed, ⟨colon, _, colonNamed, afterColon, rfl⟩, rfl⟩ := parts
    obtain ⟨item, covered, rest, spells, after, rfl⟩ := afterColon
    have entry : declaration.Means [.nonterminal "object_entry"] [.array [.token key, item]]
        (key :: colon :: covered) :=
      means_entry_iff.mpr ⟨key, colon, item, covered, keyNamed, colonNamed, spells, rfl, rfl⟩
    have listed {pairs : List Value}
        (afterPair : AfterElement "object_entry_list" "right_brace" (.array [.token key, item]) pairs
          rest) :
        SpellsList "object_entry_list" "right_brace" pairs (key :: colon :: (covered ++ rest)) :=
      entryRules.spells_iff.mpr ⟨_, _, rest, entry, afterPair, rfl⟩
    cases after with
    | more named further =>
        obtain ⟨others, spellsOthers, rfl⟩ := further
        exact ⟨_, listed (.more named spellsOthers), rfl⟩
    | last named => exact ⟨_, listed (.last named), rfl⟩

/-- The rules of a list between an opening and a closing token. -/
structure EnclosedRules (name opening close list : String) (full empty : Nat)
    (meaning : List Value → Value) : Prop where
  rules : declaration.rulesOf name =
    [(full, [.terminal opening, .nonterminal list, .terminal close]),
     (empty, [.terminal opening, .terminal close])]
  full : ∀ {first elements last}, Reducer.reduce (declaration.reducer? full)
    [first, .array elements, last] = meaning elements
  empty : ∀ {first last}, Reducer.reduce (declaration.reducer? empty) [first, last] = meaning []

theorem EnclosedRules.means_iff {name opening close list element : String}
    {full empty further single : Nat} {meaning : List Value → Value}
    (enclosed : EnclosedRules name opening close list full empty meaning)
    (listed : ListRules list element further single) :
    declaration.Means [.nonterminal name] [value] tokens ↔
      ∃ first elements rest, first.name = opening ∧ value = meaning elements ∧
        tokens = first :: rest ∧
        (SpellsList list close elements rest ∨
          elements = [] ∧ ∃ closing, closing.name = close ∧ rest = [closing]) := by
  rw [means_nonterminal, enclosed.rules]
  constructor
  · intro parts
    obtain ⟨id, rhs, children, member, means, rfl⟩ := parts
    rcases List.mem_cons.mp member with isFull | isEmpty
    · obtain ⟨rfl, rfl⟩ := Prod.mk.inj isFull
      obtain ⟨first, _, rest, named, rfl, rfl, inner⟩ := means_terminal_cons.mp means
      obtain ⟨listValue, _, covered, _, listMeans, closeMeans, rfl, rfl⟩ := means_cons_iff.mp inner
      obtain ⟨closing, closed, rfl, rfl⟩ := means_terminal.mp closeMeans
      obtain ⟨elements, rfl⟩ := listed.exists_elements listMeans
      exact ⟨first, elements, _, named, enclosed.full, rfl, .inl ⟨closing, inner⟩⟩
    · obtain ⟨rfl, rfl⟩ := Prod.mk.inj (List.mem_singleton.mp isEmpty)
      obtain ⟨first, _, rest, named, rfl, rfl, closeMeans⟩ := means_terminal_cons.mp means
      obtain ⟨closing, closed, rfl, rfl⟩ := means_terminal.mp closeMeans
      exact ⟨first, [], _, named, enclosed.empty, rfl, .inr ⟨rfl, closing, closed, rfl⟩⟩
  · intro parts
    obtain ⟨first, elements, rest, named, rfl, rfl, spells | ⟨rfl, closing, closed, rfl⟩⟩ := parts
    · obtain ⟨closing, inner⟩ := spells
      exact ⟨full, _, _, List.mem_cons_self,
        means_terminal_cons.mpr ⟨first, _, rest, named, rfl, rfl, inner⟩, enclosed.full.symm⟩
    · exact ⟨empty, _, _, List.mem_cons_of_mem _ (List.mem_singleton_self _),
        means_terminal_cons.mpr ⟨first, _, _, named, rfl, rfl,
          means_terminal.mpr ⟨closing, closed, rfl, rfl⟩⟩, enclosed.empty.symm⟩

theorem arrayRules :
    EnclosedRules "array" "left_bracket" "right_bracket" "array_items" 14 15 .array :=
  ⟨rulesOf_array, rfl, rfl⟩

theorem objectRules :
    EnclosedRules "object" "left_brace" "right_brace" "object_entry_list" 9 10
      fun pairs => .map (addEntries [] (pairs.filterMap Value.toEntry?)) :=
  ⟨rulesOf_object, rfl, rfl⟩

theorem shape_of_array (means : declaration.Means [.nonterminal "array"] [value] tokens) :
    ValueShape value tokens := by
  obtain ⟨opening, elements, rest, named, rfl, rfl, inner⟩ :=
    (arrayRules.means_iff itemRules).mp means
  rcases inner with spells | ⟨rfl, closing, closed, rfl⟩
  · exact .array named spells
  · exact .emptyArray named closed

theorem shape_of_object (means : declaration.Means [.nonterminal "object"] [value] tokens) :
    ValueShape value tokens := by
  obtain ⟨opening, pairs, rest, named, rfl, rfl, inner⟩ :=
    (objectRules.means_iff entryRules).mp means
  rcases inner with spells | ⟨rfl, closing, closed, rfl⟩
  · exact .object named ⟨pairs, spells, rfl⟩
  · exact .emptyObject named closed

theorem shape_of_boolean (means : declaration.Means [.nonterminal "boolean"] [value] tokens) :
    ValueShape value tokens := by
  obtain ⟨id, rhs, children, member, inner, rfl⟩ := means_nonterminal.mp means
  rw [rulesOf_boolean] at member
  rcases List.mem_cons.mp member with isTrue | isFalse
  · obtain ⟨rfl, rfl⟩ := Prod.mk.inj isTrue
    obtain ⟨token, named, rfl, rfl⟩ := means_terminal.mp inner
    exact .scalar (by simp only [scalar?, named]; rfl)
  · obtain ⟨rfl, rfl⟩ := Prod.mk.inj (List.mem_singleton.mp isFalse)
    obtain ⟨token, named, rfl, rfl⟩ := means_terminal.mp inner
    exact .scalar (by simp only [scalar?, named]; rfl)

theorem shape_of_spells (spells : Spells value tokens) : ValueShape value tokens := by
  obtain ⟨id, rhs, children, member, inner, rfl⟩ := means_nonterminal.mp spells
  rw [rulesOf_expr] at member
  simp only [List.mem_cons, List.not_mem_nil, or_false, Prod.mk.injEq] at member
  rcases member with ⟨rfl, rfl⟩ | ⟨rfl, rfl⟩ | ⟨rfl, rfl⟩ | ⟨rfl, rfl⟩ | ⟨rfl, rfl⟩ | ⟨rfl, rfl⟩
  · obtain ⟨child, rfl⟩ := exists_value_of_means inner
    exact shape_of_array inner
  · obtain ⟨child, rfl⟩ := exists_value_of_means inner
    exact shape_of_object inner
  · obtain ⟨child, rfl⟩ := exists_value_of_means inner
    exact shape_of_boolean inner
  · obtain ⟨token, named, rfl, rfl⟩ := means_terminal.mp inner
    exact .scalar (by simp only [scalar?, named]; rfl)
  · obtain ⟨token, named, rfl, rfl⟩ := means_terminal.mp inner
    exact .scalar (by simp only [scalar?, named]; rfl)
  · obtain ⟨token, named, rfl, rfl⟩ := means_terminal.mp inner
    exact .scalar (by simp only [scalar?, named]; rfl)

/-- A rule of values carries the value of its right-hand side over. -/
theorem spells_of_rule {id : Nat} {rhs : List (Symbol String String)} {children : List Value}
    (member : (id, rhs) ∈ declaration.rulesOf "expr")
    (inner : declaration.Means rhs children tokens) :
    Spells (Reducer.reduce (declaration.reducer? id) children) tokens :=
  means_nonterminal.mpr ⟨id, rhs, children, member, inner, rfl⟩

theorem spells_of_boolean {id : Nat} {name : String} {token : Token}
    (member : (id, [.terminal name]) ∈ declaration.rulesOf "boolean") (named : token.name = name) :
    Spells (Reducer.reduce (declaration.reducer? id) [.token token]) [token] := by
  have boolean : declaration.Means [.nonterminal "boolean"]
      [Reducer.reduce (declaration.reducer? id) [.token token]] [token] :=
    means_nonterminal.mpr ⟨id, _, _, member, means_terminal.mpr ⟨token, named, rfl, rfl⟩, rfl⟩
  have isRule : (3, [.nonterminal "boolean"]) ∈ declaration.rulesOf "expr" := by decide
  have spells := spells_of_rule isRule boolean
  exact spells

theorem spells_of_terminal {id : Nat} {name : String} {token : Token}
    (member : (id, [.terminal name]) ∈ declaration.rulesOf "expr") (named : token.name = name) :
    Spells (Reducer.reduce (declaration.reducer? id) [.token token]) [token] :=
  spells_of_rule member (means_terminal.mpr ⟨token, named, rfl, rfl⟩)

theorem spells_of_scalar {token : Token} (alone : scalar? token = some value) :
    Spells value [token] := by
  unfold scalar? at alone
  split at alone
  next named =>
    cases alone
    exact spells_of_terminal (show (4, _) ∈ _ by decide) named
  next named =>
    cases alone
    exact spells_of_terminal (show (5, _) ∈ _ by decide) named
  next named =>
    cases alone
    exact spells_of_boolean (show (7, _) ∈ _ by decide) named
  next named =>
    cases alone
    exact spells_of_boolean (show (8, _) ∈ _ by decide) named
  next named =>
    cases alone
    exact spells_of_terminal (show (6, _) ∈ _ by decide) named
  next => cases alone

theorem spells_of_array (means : declaration.Means [.nonterminal "array"] [value] tokens) :
    Spells value tokens :=
  spells_of_rule (show (1, [.nonterminal "array"]) ∈ declaration.rulesOf "expr" by decide) means

theorem spells_of_object (means : declaration.Means [.nonterminal "object"] [value] tokens) :
    Spells value tokens :=
  spells_of_rule (show (2, [.nonterminal "object"]) ∈ declaration.rulesOf "expr" by decide) means

theorem spells_of_shape (shape : ValueShape value tokens) : Spells value tokens := by
  cases shape with
  | scalar alone => exact spells_of_scalar alone
  | emptyArray named closed =>
      apply spells_of_array
      exact (arrayRules.means_iff itemRules).mpr
        ⟨_, [], _, named, rfl, rfl, .inr ⟨rfl, _, closed, rfl⟩⟩
  | array named inner =>
      apply spells_of_array
      exact (arrayRules.means_iff itemRules).mpr ⟨_, _, _, named, rfl, rfl, .inl inner⟩
  | emptyObject named closed =>
      apply spells_of_object
      exact (objectRules.means_iff entryRules).mpr
        ⟨_, [], _, named, rfl, rfl, .inr ⟨rfl, _, closed, rfl⟩⟩
  | object named inner =>
      obtain ⟨pairs, spells, rfl⟩ := inner
      apply spells_of_object
      exact (objectRules.means_iff entryRules).mpr ⟨_, pairs, _, named, rfl, rfl, .inl spells⟩

theorem spells_iff : Spells value tokens ↔ ValueShape value tokens :=
  ⟨shape_of_spells, spells_of_shape⟩

section FirstTokens

variable {token : Token} {rest : List Token}

theorem spells_scalar {scalar : Value} (alone : scalar? token = some scalar) :
    Spells value (token :: rest) ↔ value = scalar ∧ rest = [] := by
  rw [spells_iff]
  constructor
  · intro shape
    cases shape with
    | scalar sameAlone => exact ⟨Option.some.inj (sameAlone.symm.trans alone), rfl⟩
    | emptyArray named _ => simp [scalar?, named] at alone
    | array named _ => simp [scalar?, named] at alone
    | emptyObject named _ => simp [scalar?, named] at alone
    | object named _ => simp [scalar?, named] at alone
  · intro spelled
    obtain ⟨rfl, rfl⟩ := spelled
    exact .scalar alone

theorem spells_bracket (isBracket : token.name = "left_bracket") :
    Spells value (token :: rest) ↔
      (∃ items, SpellsItems items rest ∧ value = .array items) ∨
        value = .array [] ∧ ∃ closing, closing.name = "right_bracket" ∧ rest = [closing] := by
  rw [spells_iff]
  constructor
  · intro shape
    cases shape with
    | scalar alone => simp [scalar?, isBracket] at alone
    | emptyArray _ closed => exact .inr ⟨rfl, _, closed, rfl⟩
    | array _ inner => exact .inl ⟨_, inner, rfl⟩
    | emptyObject named _ => simp [isBracket] at named
    | object named _ => simp [isBracket] at named
  · intro shapes
    rcases shapes with ⟨items, inner, rfl⟩ | ⟨rfl, closing, closed, rfl⟩
    · exact .array isBracket inner
    · exact .emptyArray isBracket closed

theorem spells_brace (isBrace : token.name = "left_brace") :
    Spells value (token :: rest) ↔ SpellsEntries [] value rest ∨
      value = .map [] ∧ ∃ closing, closing.name = "right_brace" ∧ rest = [closing] := by
  rw [spells_iff]
  constructor
  · intro shape
    cases shape with
    | scalar alone => simp [scalar?, isBrace] at alone
    | emptyArray named _ => simp [isBrace] at named
    | array named _ => simp [isBrace] at named
    | emptyObject _ closed => exact .inr ⟨rfl, _, closed, rfl⟩
    | object _ inner => exact .inl inner
  · intro shapes
    rcases shapes with inner | ⟨rfl, closing, closed, rfl⟩
    · exact .object isBrace inner
    · exact .emptyObject isBrace closed

end FirstTokens

end EarleyChart.Document
