import EarleyChart.Proofs.JsonText
import EarleyChart.Value.Json

/-!
Contract: plain values as documents and back.

A map keeps its entries in order (`exists_sorted_of_ofEntries`), so that a value read from a tree is
plain unless it holds a double (`plain_of_toJson?`). The document of a plain value is one
that its text keeps, and stands for the value again (`IsPlainWithin.ofJson_toJsonWith`).
-/

namespace EarleyChart.Value

/-- A value that holds no double. -/
inductive FloatFree : Value → Prop where
  | nil : FloatFree .nil
  | bool (b : Bool) : FloatFree (.bool b)
  | int (n : Int64) : FloatFree (.int n)
  | string (s : String) : FloatFree (.string s)
  | array {items : List Value} (each : ∀ item ∈ items, FloatFree item) : FloatFree (.array items)
  | map {entries : List (String × Value)} (each : ∀ entry ∈ entries, FloatFree entry.2) :
      FloatFree (.map entries)
  | token (t : Token) : FloatFree (.token t)

/-- The keys of entries are in order, each key once. -/
def Ordered (entries : List (String × Value)) : Prop :=
  entries.Pairwise fun first second => first.1 < second.1

/-- A value of integers, texts and the three constants, in lists and ordered maps that are nested no
deeper than `room`. -/
inductive IsPlainWithin : (room : Nat) → Value → Prop where
  | nil {room : Nat} : IsPlainWithin room .nil
  | bool {room : Nat} (b : Bool) : IsPlainWithin room (.bool b)
  | int {room : Nat} (n : Int64) : IsPlainWithin room (.int n)
  | string {room : Nat} (s : String) : IsPlainWithin room (.string s)
  | array {room : Nat} {items : List Value} (each : ∀ item ∈ items, IsPlainWithin room item) :
      IsPlainWithin (room + 1) (.array items)
  | map {room : Nat} {entries : List (String × Value)} (ordered : Ordered entries)
      (each : ∀ entry ∈ entries, IsPlainWithin room entry.2) :
      IsPlainWithin (room + 1) (.map entries)

section Maps

variable {key : String} {value : Value} {entries : List (String × Value)}

theorem eq_or_mem_of_mem_insertEntry {entry : String × Value}
    (member : entry ∈ insertEntry key value entries) : entry = (key, value) ∨ entry ∈ entries := by
  induction entries with
  | nil => exact .inl (List.mem_singleton.mp member)
  | cons other rest inductionHypothesis =>
      rw [insertEntry] at member
      split at member
      · exact List.mem_cons.mp member
      · split at member
        · rcases List.mem_cons.mp member with same | member
          · exact .inl same
          · exact .inr (List.mem_cons_of_mem _ member)
        · rcases List.mem_cons.mp member with same | member
          · exact .inr (List.mem_cons.mpr (.inl same))
          · exact (inductionHypothesis member).imp_right (List.mem_cons_of_mem _)

theorem ordered_insertEntry (ordered : Ordered entries) :
    Ordered (insertEntry key value entries) := by
  induction entries with
  | nil => exact List.pairwise_singleton _ _
  | cons other rest inductionHypothesis =>
      obtain ⟨above, orderedRest⟩ := List.pairwise_cons.mp ordered
      rw [insertEntry]
      split
      next below =>
        refine List.pairwise_cons.mpr ⟨?_, ordered⟩
        intro entry member
        rcases List.mem_cons.mp member with rfl | member
        · exact below
        · exact String.lt_trans below (above entry member)
      next notBelow =>
        split
        next same =>
          exact List.pairwise_cons.mpr ⟨fun entry member => same ▸ above entry member, orderedRest⟩
        next different =>
          have after : other.1 < key := by
            apply Decidable.of_not_not
            intro notAfter
            exact different
              (String.le_antisymm (String.not_lt.mp notAfter) (String.not_lt.mp notBelow))
          refine List.pairwise_cons.mpr ⟨?_, inductionHypothesis orderedRest⟩
          intro entry member
          rcases eq_or_mem_of_mem_insertEntry member with rfl | member
          · exact after
          · exact above entry member

/-- A map that entries make up is in order and holds none but these entries. -/
theorem exists_sorted_of_ofEntries (entries : List (String × Value)) : ∃ sorted,
    ofEntries entries = .map sorted ∧ Ordered sorted ∧ ∀ entry ∈ sorted, entry ∈ entries := by
  have added (before : List (String × Value)) (ordered : Ordered before) : ∃ sorted,
      entries.foldl (fun sorted entry => insertEntry entry.1 entry.2 sorted) before = sorted ∧
        Ordered sorted ∧ ∀ entry ∈ sorted, entry ∈ before ∨ entry ∈ entries := by
    induction entries generalizing before with
    | nil => exact ⟨before, rfl, ordered, fun entry member => .inl member⟩
    | cons entry rest inductionHypothesis =>
        obtain ⟨sorted, same, orderedSorted, origins⟩ :=
          inductionHypothesis (insertEntry entry.1 entry.2 before) (ordered_insertEntry ordered)
        refine ⟨sorted, same, orderedSorted, ?_⟩
        intro other member
        rcases origins other member with member | member
        · rcases eq_or_mem_of_mem_insertEntry member with rfl | member
          · exact .inr List.mem_cons_self
          · exact .inl member
        · exact .inr (List.mem_cons_of_mem _ member)
  obtain ⟨sorted, same, ordered, origins⟩ := added [] .nil
  refine ⟨sorted, congrArg Value.map same, ordered, ?_⟩
  intro entry member
  exact (origins entry member).resolve_left List.not_mem_nil

/-- A key after all others goes to the end. -/
theorem insertEntry_of_forall_lt (after : ∀ entry ∈ entries, entry.1 < key) :
    insertEntry key value entries = entries ++ [(key, value)] := by
  induction entries with
  | nil => rfl
  | cons entry entries inductionHypothesis =>
      obtain ⟨other, kept⟩ := entry
      have less : other < key := after (other, kept) List.mem_cons_self
      have different : key ≠ other := by
        rintro rfl
        exact String.lt_irrefl _ less
      rw [insertEntry, if_neg (String.lt_asymm less), if_neg different,
        inductionHypothesis fun entry member => after entry (List.mem_cons_of_mem _ member)]
      rfl

/-- The next of entries in order goes to the end of those before it. -/
theorem insertEntry_of_ordered {before rest : List (String × Value)} {entry : String × Value}
    (ordered : Ordered (before ++ entry :: rest)) :
    insertEntry entry.1 entry.2 before = before ++ [entry] :=
  insertEntry_of_forall_lt fun other member =>
    (List.pairwise_append.mp ordered).2.2 other member entry List.mem_cons_self

/-- Entries in order make up the map of themselves. -/
theorem ofEntries_of_ordered (ordered : Ordered entries) : ofEntries entries = .map entries := by
  have added (before rest : List (String × Value)) (ordered : Ordered (before ++ rest)) :
      rest.foldl (fun sorted entry => insertEntry entry.1 entry.2 sorted) before =
        before ++ rest := by
    induction rest generalizing before with
    | nil => exact (List.append_nil before).symm
    | cons entry rest inductionHypothesis =>
        have last := insertEntry_of_ordered ordered
        have regrouped : before ++ entry :: rest = before ++ [entry] ++ rest := by simp
        rw [regrouped] at ordered ⊢
        rw [List.foldl_cons, last]
        exact inductionHypothesis (before ++ [entry]) ordered
  exact congrArg Value.map (added [] entries ordered)

end Maps

section Documents

theorem ofJsonItems_eq_map (items : List Json) : ofJsonItems items = items.map ofJson := by
  induction items with
  | nil => rfl
  | cons item rest inductionHypothesis => rw [ofJsonItems, inductionHypothesis, List.map_cons]

theorem ofJsonMembers_eq_map (members : List (String × Json)) :
    ofJsonMembers members = members.map fun member => (member.1, ofJson member.2) := by
  induction members with
  | nil => rfl
  | cons member rest inductionHypothesis => rw [ofJsonMembers, inductionHypothesis, List.map_cons]

theorem itemsToJson_eq_map (ofToken : Token → Json) (items : List Value) :
    itemsToJson ofToken items = items.map (toJsonWith ofToken) := by
  induction items with
  | nil => rfl
  | cons item rest inductionHypothesis => rw [itemsToJson, inductionHypothesis, List.map_cons]

theorem entriesToJson_eq_map (ofToken : Token → Json) (entries : List (String × Value)) :
    entriesToJson ofToken entries =
      entries.map fun entry => (entry.1, entry.2.toJsonWith ofToken) := by
  induction entries with
  | nil => rfl
  | cons entry rest inductionHypothesis => rw [entriesToJson, inductionHypothesis, List.map_cons]

theorem IsPlainWithin.isExact {room : Nat} {value : Value} (plain : value.IsPlainWithin room)
    (ofToken : Token → Json) : (value.toJsonWith ofToken).IsExact room := by
  induction plain with
  | nil => exact .null
  | bool b => exact .bool b
  | int n =>
      have above : -9223372036854775808 ≤ n.toInt := n.le_toInt
      have below : n.toInt ≤ 9223372036854775807 := n.toInt_le
      exact .int above (by simp only [Json.maxWord]; omega)
  | string s => exact .string s
  | array _ inductionHypothesis =>
      rw [toJsonWith, itemsToJson_eq_map]
      exact .array (List.forall_mem_map.mpr inductionHypothesis)
  | map _ _ inductionHypothesis =>
      rw [toJsonWith, entriesToJson_eq_map]
      exact .object (List.forall_mem_map.mpr inductionHypothesis)

/-- The document of a plain value stands for the value. -/
theorem IsPlainWithin.ofJson_toJsonWith {room : Nat} {value : Value}
    (plain : value.IsPlainWithin room) (ofToken : Token → Json) :
    ofJson (value.toJsonWith ofToken) = value := by
  induction plain with
  | nil => rfl
  | bool b => rfl
  | int n =>
      rw [toJsonWith, ofJson, ofInteger, if_pos ⟨n.le_toInt, n.toInt_le⟩, Int64.ofInt_toInt]
  | string s => rfl
  | @array _ items _ inductionHypothesis =>
      have same : items.map (ofJson ∘ toJsonWith ofToken) = items :=
        (List.map_congr_left inductionHypothesis).trans (List.map_id items)
      rw [toJsonWith, ofJson, itemsToJson_eq_map, ofJsonItems_eq_map, List.map_map, same]
  | @map _ entries ordered _ inductionHypothesis =>
      have same : entries.map (fun entry => (entry.1, ofJson (entry.2.toJsonWith ofToken))) =
          entries := by
        refine (List.map_congr_left ?_).trans (List.map_id entries)
        intro entry member
        exact Prod.ext rfl (inductionHypothesis entry member)
      rw [toJsonWith, ofJson, entriesToJson_eq_map, ofJsonMembers_eq_map, List.map_map]
      exact (congrArg ofEntries same).trans (ofEntries_of_ordered ordered)

theorem isPlainWithin_ofInteger {room : Nat} {n : Int} (floatFree : (ofInteger n).FloatFree) :
    (ofInteger n).IsPlainWithin room := by
  rw [ofInteger] at floatFree ⊢
  split
  next => exact .int _
  next outside =>
    rw [if_neg outside] at floatFree
    nomatch floatFree

/-- A numeral means an integer or a double. -/
theorem int_or_float_of_numeral {numeral : Json.Numeral} {document : Json}
    (meant : numeral.toJson? = some document) :
    (∃ n, document = .int n) ∨ ∃ x, document = .float x := by
  simp only [Json.Numeral.toJson?] at meant
  split at meant
  · split at meant
    · split at meant
      · exact .inr ⟨_, (Option.some.inj meant).symm⟩
      · exact .inl ⟨_, (Option.some.inj meant).symm⟩
    · exact .inl ⟨_, (Option.some.inj meant).symm⟩
  · obtain ⟨x, _, rfl⟩ := Option.map_eq_some_iff.mp meant
    exact .inr ⟨x, rfl⟩

/-- An array means the array of what its items mean, one container further in. -/
theorem exists_items_of_toJson? {trees : List Json.Tree} {room : Nat} {document : Json}
    (meant : (Json.Tree.array trees).toJson? room = some document) :
    ∃ inner items, room = inner + 1 ∧ Json.Tree.itemsToJson? inner trees = some items ∧
      document = .array items := by
  rw [Json.Tree.toJson?] at meant
  split at meant
  next => contradiction
  next entered =>
    obtain ⟨items, read, rfl⟩ := Option.map_eq_some_iff.mp meant
    obtain ⟨inner, rfl⟩ := Nat.exists_eq_succ_of_ne_zero entered
    exact ⟨inner, items, rfl, read, rfl⟩

/-- An object means the object of what its members mean, one container further in. -/
theorem exists_members_of_toJson? {trees : List (Option String × Json.Tree)} {room : Nat}
    {document : Json} (meant : (Json.Tree.object trees).toJson? room = some document) :
    ∃ inner members, room = inner + 1 ∧ Json.Tree.membersToJson? inner trees = some members ∧
      document = .object members := by
  rw [Json.Tree.toJson?] at meant
  split at meant
  next => contradiction
  next entered =>
    obtain ⟨members, read, rfl⟩ := Option.map_eq_some_iff.mp meant
    obtain ⟨inner, rfl⟩ := Nat.exists_eq_succ_of_ne_zero entered
    exact ⟨inner, members, rfl, read, rfl⟩

/-- A document whose value is plain, inside `room` containers, unless it holds a double. -/
def PlainUnlessFloat (room : Nat) (document : Json) : Prop :=
  (ofJson document).FloatFree → (ofJson document).IsPlainWithin room

mutual

/-- A value that was read from a tree is plain unless it holds a double. -/
theorem plain_of_toJson? (tree : Json.Tree) {room : Nat} {document : Json}
    (meant : tree.toJson? room = some document) : PlainUnlessFloat room document := by
  intro floatFree
  cases tree with
  | null =>
      obtain rfl := Option.some.inj meant
      exact .nil
  | bool b =>
      obtain rfl := Option.some.inj meant
      exact .bool b
  | number numeral =>
      rcases int_or_float_of_numeral meant with ⟨n, rfl⟩ | ⟨x, rfl⟩
      · exact isPlainWithin_ofInteger floatFree
      · nomatch floatFree
  | string s =>
      obtain ⟨text, _, rfl⟩ := Option.map_eq_some_iff.mp meant
      exact .string text
  | array items =>
      obtain ⟨inner, documents, rfl, read, rfl⟩ := exists_items_of_toJson? meant
      rw [ofJson, ofJsonItems_eq_map] at floatFree ⊢
      cases floatFree with
      | array each =>
        refine .array (List.forall_mem_map.mpr ?_)
        intro item member
        exact plain_of_itemsToJson? items read item member (each _ (List.mem_map_of_mem member))
  | object members =>
      obtain ⟨inner, documents, rfl, read, rfl⟩ := exists_members_of_toJson? meant
      obtain ⟨sorted, same, ordered, origins⟩ :=
        exists_sorted_of_ofEntries (ofJsonMembers documents)
      rw [ofJson, same] at floatFree ⊢
      cases floatFree with
      | map each =>
        -- A double under a key that is given again later does not reach the map.
        refine .map ordered ?_
        intro entry member
        have listed := origins entry member
        rw [ofJsonMembers_eq_map] at listed
        obtain ⟨document, isMember, rfl⟩ := List.mem_map.mp listed
        exact plain_of_membersToJson? members read document isMember (each _ member)
termination_by structural tree

theorem plain_of_itemsToJson? (items : List Json.Tree) {room : Nat} {documents : List Json}
    (meant : Json.Tree.itemsToJson? room items = some documents) :
    ∀ document ∈ documents, PlainUnlessFloat room document := by
  cases items with
  | nil =>
      obtain rfl := Option.some.inj meant
      exact List.forall_mem_nil _
  | cons item rest =>
      obtain ⟨document, read, meant⟩ := Option.bind_eq_some_iff.mp meant
      obtain ⟨documents, readRest, meant⟩ := Option.bind_eq_some_iff.mp meant
      obtain rfl := Option.some.inj meant
      refine List.forall_mem_cons.mpr ⟨?_, ?_⟩
      · exact plain_of_toJson? item read
      · exact plain_of_itemsToJson? rest readRest
termination_by structural items

theorem plain_of_membersToJson? (members : List (Option String × Json.Tree)) {room : Nat}
    {documents : List (String × Json)}
    (meant : Json.Tree.membersToJson? room members = some documents) :
    ∀ document ∈ documents, PlainUnlessFloat room document.2 := by
  cases members with
  | nil =>
      obtain rfl := Option.some.inj meant
      exact List.forall_mem_nil _
  | cons member rest =>
      obtain ⟨key, value⟩ := member
      obtain ⟨key, _, meant⟩ := Option.bind_eq_some_iff.mp meant
      obtain ⟨document, read, meant⟩ := Option.bind_eq_some_iff.mp meant
      obtain ⟨documents, readRest, meant⟩ := Option.bind_eq_some_iff.mp meant
      obtain rfl := Option.some.inj meant
      refine List.forall_mem_cons.mpr ⟨?_, ?_⟩
      · exact plain_of_toJson? value read
      · exact plain_of_membersToJson? rest readRest
termination_by structural members

end

variable {tree : Json.Tree} {room : Nat}

theorem plain_items_of_toJson? {items : List Json}
    (meant : tree.toJson? room = some (.array items)) :
    ∀ item ∈ items, PlainUnlessFloat (room - 1) item := by
  cases tree with
  | array trees =>
      obtain ⟨inner, documents, rfl, read, same⟩ := exists_items_of_toJson? meant
      obtain rfl := Json.array.inj same
      exact plain_of_itemsToJson? trees read
  | object =>
      obtain ⟨_, _, _, _, same⟩ := exists_members_of_toJson? meant
      nomatch same
  | number numeral =>
      rcases int_or_float_of_numeral meant with ⟨_, same⟩ | ⟨_, same⟩ <;> nomatch same
  | null | bool | string => simp [Json.Tree.toJson?] at meant

theorem plain_members_of_toJson? {members : List (String × Json)}
    (meant : tree.toJson? room = some (.object members)) :
    ∀ member ∈ members, PlainUnlessFloat (room - 1) member.2 := by
  cases tree with
  | object trees =>
      obtain ⟨inner, documents, rfl, read, same⟩ := exists_members_of_toJson? meant
      obtain rfl := Json.object.inj same
      exact plain_of_membersToJson? trees read
  | array =>
      obtain ⟨_, _, _, _, same⟩ := exists_items_of_toJson? meant
      nomatch same
  | number numeral =>
      rcases int_or_float_of_numeral meant with ⟨_, same⟩ | ⟨_, same⟩ <;> nomatch same
  | null | bool | string => simp [Json.Tree.toJson?] at meant

end Documents

end EarleyChart.Value
