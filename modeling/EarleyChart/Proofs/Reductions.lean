import Mathlib.Data.List.Induction
import Mathlib.Data.List.Sort
import EarleyChart.Action.Basic
import EarleyChart.Proofs.PlainValues

/-!
Contract: what the built-in reductions make of the children they name.

`Action.Means` says it for children that are only read, never taken away: the child of an index is the
one at that place, or nil. The map of a list of pairs is told by its last pairs (`Value.MapsLatest`). An
action that names one child twice is given nil at the second place, and `Action.Rereads` are the
actions and children for which that shows (`Action.apply_means_iff`).
-/

namespace EarleyChart

/-- The child at an index, which is nil where there is none. -/
def childAt (children : List Value) (index : Nat) : Value :=
  (children[index]?).getD .nil

namespace Value

/-- The elements that a value stands for in a list. -/
inductive Lists : Value → List Value → Prop where
  | array (items : List Value) : Lists (.array items) items
  | nil : Lists .nil []
  | single {value : Value} (noArray : ∀ items, value ≠ .array items) (notNil : value ≠ .nil) :
      Lists value [value]

/-- A pair of a key, as a text or spelled by a token, and a value. -/
inductive IsEntry : Value → String → Value → Prop where
  | named (key : String) (value : Value) : IsEntry (.array [.string key, value]) key value
  | spelled (t : Token) (value : Value) :
      IsEntry (.array [.token t, value]) (Literal.unquote t.text) value

/-- The last pair of a key has the value. -/
def Latest (items : List Value) (key : String) (value : Value) : Prop :=
  ∃ before item after, items = before ++ item :: after ∧ item.IsEntry key value ∧
    ∀ later ∈ after, ∀ other, ¬later.IsEntry key other

/-- The entries, in order, are the last pairs of all keys. -/
structure MapsLatest (items : List Value) (entries : List (String × Value)) : Prop where
  ordered : Ordered entries
  latest : ∀ key value, (key, value) ∈ entries ↔ Latest items key value

end Value

/-- What an action makes of the children it names. -/
inductive Action.Means (children : List Value) : Action → Value → Prop where
  | pick (index : Nat) : Means children (.pick index) (childAt children index)
  | constant (value : Value) : Means children (.constant value) value
  | number (index : Nat) : Means children (.number index) (childAt children index).toNumber
  | unquote (index : Nat) : Means children (.unquote index) (childAt children index).toUnquoted
  | text (index : Nat) : Means children (.text index) (childAt children index).toText
  | singleton (index : Nat) : Means children (.singleton index) (.array [childAt children index])
  | cons {head tail : Nat} {elements : List Value}
      (listed : (childAt children tail).Lists elements) :
      Means children (.cons head tail) (.array (childAt children head :: elements))
  | emptyList : Means children .emptyList (.array [])
  | emptyMap : Means children .emptyMap (.map [])
  | entries {index : Nat} {items : List Value} {entries : List (String × Value)}
      (array : childAt children index = .array items) (maps : Value.MapsLatest items entries) :
      Means children (.entries index) (.map entries)
  | noEntries {index : Nat} (noArray : ∀ items, childAt children index ≠ .array items) :
      Means children (.entries index) (.map [])
  | pair (key value : Nat) :
      Means children (.pair key value) (.array [childAt children key, childAt children value])

/-- An action names a child twice for which nil is no substitute. -/
inductive Action.Rereads (children : List Value) : Action → Prop where
  | cons {index : Nat} {elements : List Value} (listed : (childAt children index).Lists elements)
      (some : elements ≠ []) : Rereads children (.cons index index)
  | pair {index : Nat} (present : childAt children index ≠ .nil) :
      Rereads children (.pair index index)

namespace Value

theorem lists_iff {value : Value} {elements : List Value} :
    value.Lists elements ↔ elements = value.toItems := by
  constructor
  · intro lists
    cases lists with
    | array => rfl
    | nil => rfl
    | single noArray notNil =>
        cases value with
        | array items => exact absurd rfl (noArray items)
        | nil => exact absurd rfl notNil
        | _ => rfl
  · rintro rfl
    cases value with
    | array items => exact .array items
    | nil => exact .nil
    | _ => exact .single nofun nofun

theorem isEntry_iff {item : Value} {key : String} {value : Value} :
    item.IsEntry key value ↔ item.toEntry? = some (key, value) := by
  constructor
  · intro entry
    cases entry <;> rfl
  · intro entry
    unfold toEntry? at entry
    split at entry
    · obtain ⟨rfl, rfl⟩ := Prod.mk.inj (Option.some.inj entry)
      exact .named _ _
    · obtain ⟨rfl, rfl⟩ := Prod.mk.inj (Option.some.inj entry)
      exact .spelled _ _
    · contradiction

section Maps

variable {items : List Value} {item value : Value} {key : String}
  {entries : List (String × Value)}

/-- In ordered entries a new one stands in place of that of its key, beside all others. -/
theorem mem_insertEntry_iff (ordered : Ordered entries) {other : String} {found : Value} :
    (other, found) ∈ insertEntry key value entries ↔
      other = key ∧ found = value ∨ other ≠ key ∧ (other, found) ∈ entries := by
  induction entries with
  | nil => simp [insertEntry]
  | cons entry rest inductionHypothesis =>
      obtain ⟨first, kept⟩ := entry
      obtain ⟨above, orderedRest⟩ := List.pairwise_cons.mp ordered
      have notInRest (below : ¬first < key) : (key, found) ∉ rest := fun member =>
        below (above _ member)
      rw [insertEntry]
      split
      next less =>
        have absent : (key, found) ∉ (first, kept) :: rest := by
          intro member
          rcases List.mem_cons.mp member with same | member
          · exact String.lt_irrefl _ ((Prod.mk.inj same).1 ▸ less)
          · exact notInRest (String.lt_asymm less) member
        by_cases same : other = key
        · subst same
          simp [absent]
        · simp [same]
      next notLess =>
        split
        next same =>
          subst same
          have absent := notInRest (String.lt_irrefl _)
          by_cases same : other = key
          · subst same
            simp [absent]
          · simp [same]
        next different =>
          simp only [List.mem_cons, Prod.mk.injEq, inductionHypothesis orderedRest]
          by_cases same : other = key
          · subst same
            simp [different]
          · simp [same]

/-- The last pair of a key is the last item, or else it is among the others. -/
theorem latest_concat : Latest (items ++ [item]) key value ↔
    item.IsEntry key value ∨ (∀ other, ¬item.IsEntry key other) ∧ Latest items key value := by
  constructor
  · rintro ⟨before, found, after, parts, entry, last⟩
    rcases List.eq_nil_or_concat after with rfl | ⟨others, final, rfl⟩
    · obtain ⟨_, same⟩ := List.append_inj' parts rfl
      obtain rfl := List.singleton_inj.mp same
      exact .inl entry
    · rw [List.concat_eq_append] at parts last
      rw [← List.cons_append, ← List.append_assoc] at parts
      obtain ⟨rfl, same⟩ := List.append_inj' parts rfl
      obtain rfl := List.singleton_inj.mp same
      refine .inr ⟨last item List.mem_concat_self, before, found, others, rfl, entry, ?_⟩
      intro later member
      exact last later (List.mem_append_left _ member)
  · rintro (entry | ⟨none, before, found, after, rfl, entry, last⟩)
    · exact ⟨items, item, [], rfl, entry, nofun⟩
    · refine ⟨before, found, after ++ [item], by simp, entry, ?_⟩
      intro later member
      rcases List.mem_append.mp member with member | member
      · exact last later member
      · exact List.mem_singleton.mp member ▸ none

/-- Adding the pairs one after the other keeps the last one of each key. -/
theorem mapsLatest_foldl (items : List Value) : MapsLatest items
    ((items.filterMap toEntry?).foldl (fun sorted entry => insertEntry entry.1 entry.2 sorted) []) := by
  induction items using List.reverseRecOn with
  | nil => exact ⟨.nil, by simp [Latest]⟩
  | append_singleton items item inductionHypothesis =>
      obtain ⟨ordered, latest⟩ := inductionHypothesis
      rw [List.filterMap_append, List.foldl_append]
      cases made : item.toEntry? with
      | none =>
          have noEntry (key : String) (value : Value) : ¬item.IsEntry key value := by
            rw [isEntry_iff, made]
            nofun
          refine ⟨by simpa [made] using ordered, ?_⟩
          intro key value
          simpa [made, latest_concat, noEntry] using latest key value
      | some entry =>
          have isEntry (key : String) (value : Value) :
              item.IsEntry key value ↔ key = entry.1 ∧ value = entry.2 := by
            rw [isEntry_iff, made, Option.some.injEq, Prod.ext_iff]
            exact and_congr eq_comm eq_comm
          refine ⟨by simpa [made] using ordered_insertEntry ordered, ?_⟩
          intro key value
          by_cases same : key = entry.1 <;>
            simp [made, latest_concat, isEntry, mem_insertEntry_iff ordered, latest, same]

theorem mapsLatest_iff : MapsLatest items entries ↔
    .map entries = ofEntries (items.filterMap toEntry?) := by
  have made := mapsLatest_foldl items
  constructor
  · intro maps
    refine congrArg Value.map (List.Perm.eq_of_pairwise ?_ maps.ordered made.ordered ?_)
    · intro first second _ _ before after
      exact absurd after (String.lt_asymm before)
    · have distinct {entries : List (String × Value)} (ordered : Ordered entries) :
          entries.Nodup := by
        refine List.Pairwise.imp ?_ ordered
        intro first second less same
        exact String.lt_irrefl _ (same ▸ less)
      rw [List.perm_ext_iff_of_nodup (distinct maps.ordered) (distinct made.ordered)]
      intro entry
      exact (maps.latest _ _).trans (made.latest _ _).symm
  · intro same
    obtain rfl := Value.map.inj same
    exact made

end Maps

end Value

/-- The child that is left at an index when another one has been taken. -/
theorem childAt_set (children : List Value) (taken index : Nat) :
    childAt (children.set taken .nil) index =
      if taken = index then .nil else childAt children index := by
  unfold childAt
  rw [List.getElem?_set]
  split
  · split <;> rfl
  · rfl

namespace Action

variable {action : Action} {children : List Value} {value : Value}

/-- The value that an action makes of children which it only reads. -/
def meaning (action : Action) (children : List Value) : Value :=
  match action with
  | .pick index => childAt children index
  | .constant value => value
  | .number index => (childAt children index).toNumber
  | .unquote index => (childAt children index).toUnquoted
  | .text index => (childAt children index).toText
  | .singleton index => .array [childAt children index]
  | .cons head tail => .array (childAt children head :: (childAt children tail).toItems)
  | .emptyList => .array []
  | .emptyMap => .map []
  | .entries index => (childAt children index).toMap
  | .pair key value => .array [childAt children key, childAt children value]

theorem means_iff : action.Means children value ↔ value = action.meaning children := by
  constructor
  · intro means
    cases means with
    | cons listed => rw [meaning, Value.lists_iff.mp listed]
    | entries array maps =>
        rw [Value.mapsLatest_iff.mp maps, meaning, array]
        rfl
    | @noEntries index noArray =>
        rw [meaning]
        cases child : childAt children index with
        | array items => exact absurd child (noArray items)
        | _ => rfl
    | _ => rfl
  · rintro rfl
    cases action with
    | pick index => exact .pick index
    | constant value => exact .constant value
    | number index => exact .number index
    | unquote index => exact .unquote index
    | text index => exact .text index
    | singleton index => exact .singleton index
    | cons head tail => exact .cons (Value.lists_iff.mpr rfl)
    | emptyList => exact .emptyList
    | emptyMap => exact .emptyMap
    | entries index =>
        rw [meaning]
        cases child : childAt children index with
        | array items => exact .entries child (Value.mapsLatest_iff.mpr rfl)
        | _ => exact .noEntries (by rw [child]; nofun)
    | pair key value => exact .pair key value

/-- An action that names two children takes the second from what the first has left. -/
theorem apply_cons (head tail : Nat) : (Action.cons head tail).apply children =
    .array (childAt children head ::
      (if head = tail then .nil else childAt children tail : Value).toItems) := by
  rw [← childAt_set]
  rfl

theorem apply_pair (key value : Nat) : (Action.pair key value).apply children =
    .array [childAt children key, if key = value then .nil else childAt children value] := by
  rw [← childAt_set]
  rfl

theorem rereads_cons_iff {head tail : Nat} : (Action.cons head tail).Rereads children ↔
    head = tail ∧ (childAt children tail).toItems ≠ [] := by
  constructor
  · intro rereads
    cases rereads with
    | cons listed some => exact ⟨rfl, Value.lists_iff.mp listed ▸ some⟩
  · rintro ⟨rfl, some⟩
    exact .cons (Value.lists_iff.mpr rfl) some

theorem rereads_pair_iff {key value : Nat} : (Action.pair key value).Rereads children ↔
    key = value ∧ childAt children value ≠ .nil := by
  constructor
  · intro rereads
    cases rereads with
    | pair present => exact ⟨rfl, present⟩
  · rintro ⟨rfl, present⟩
    exact .pair present

/-- Every action has one meaning, and that is what it makes of its children unless it names one of them
twice and nil is no substitute for it; of such a child it makes a list or pair that lacks it at the
second place. -/
theorem apply_means_iff (action : Action) (children : List Value) :
    (∃! value, action.Means children value) ∧
      (action.Means children (action.apply children) ↔ ¬action.Rereads children) ∧
      ∀ index, (Action.cons index index).apply children = .array [childAt children index] ∧
        (Action.pair index index).apply children = .array [childAt children index, .nil] := by
  refine ⟨⟨action.meaning children, means_iff.mpr rfl, fun value means => means_iff.mp means⟩, ?_, ?_⟩
  · rw [means_iff]
    cases action with
    | cons head tail =>
        rw [apply_cons, meaning, rereads_cons_iff]
        by_cases same : head = tail
        · have none : Value.nil.toItems = [] := rfl
          simp only [same, if_true, none, Value.array.injEq, List.cons.injEq, true_and, ne_eq,
            Decidable.not_not, eq_comm]
        · simp [same]
    | pair key value =>
        rw [apply_pair, meaning, rereads_pair_iff]
        by_cases same : key = value
        · simp [same, eq_comm]
        · simp [same]
    | _ => exact iff_of_true rfl nofun
  · intro index
    rw [apply_cons, apply_pair, if_pos rfl]
    exact ⟨rfl, rfl⟩

/-- Of one child a pair should be made that holds it twice, and nil comes out at its second place. -/
theorem pairOfOneChild_lacks_second :
    (Action.pair 0 0).Means [.bool true] (.array [.bool true, .bool true]) ∧
      (Action.pair 0 0).apply [.bool true] = .array [.bool true, .nil] ∧
      ¬(Action.pair 0 0).Means [.bool true] ((Action.pair 0 0).apply [.bool true]) := by
  refine ⟨.pair 0 0, rfl, ?_⟩
  intro means
  cases means

end Action

end EarleyChart
