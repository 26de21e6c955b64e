import Mathlib
import EarleyChart.Grammar.Description
import EarleyChart.Proofs.PlainValues

/-!
Contract: grammar descriptions survive a write and a read.

A record is written as an object whose names are distinct, so that each field is found under its name
(`field?_eq_lookup`). What is read is fit to be written: its indices fit 64 bits and its values are
plain and nest no deeper than they may where they stand. `read?_write` says that a description
without doubles is read from what is written for it.
-/

namespace EarleyChart

section Lists

variable {α β γ : Type} {read : β → Option γ}

private theorem mapM_map_eq_some {write : α → β} {meaning : α → γ} {list : List α}
    (each : ∀ a ∈ list, read (write a) = some (meaning a)) :
    (list.map write).mapM read = some (list.map meaning) := by
  induction list with
  | nil => rfl
  | cons a rest inductionHypothesis =>
      have readRest := inductionHypothesis fun other member =>
        each other (List.mem_cons_of_mem a member)
      rw [List.map_cons, List.mapM_cons, each a List.mem_cons_self, readRest]
      rfl

private theorem exists_of_mem_mapM {list : List β} {results : List γ}
    (done : list.mapM read = some results) :
    ∀ result ∈ results, ∃ b ∈ list, read b = some result := by
  induction list generalizing results with
  | nil =>
      obtain rfl := Option.some.inj done
      exact List.forall_mem_nil _
  | cons b rest inductionHypothesis =>
      rw [List.mapM_cons] at done
      obtain ⟨first, isFirst, done⟩ := Option.bind_eq_some_iff.mp done
      obtain ⟨others, areOthers, done⟩ := Option.bind_eq_some_iff.mp done
      obtain rfl := Option.some.inj done
      refine List.forall_mem_cons.mpr ⟨⟨b, List.mem_cons_self, isFirst⟩, ?_⟩
      intro result member
      obtain ⟨source, listed, same⟩ := inductionHypothesis areOthers result member
      exact ⟨source, List.mem_cons_of_mem b listed, same⟩

end Lists

section Records

/-- Where names are distinct, the members with a name are the one that is looked up. -/
theorem map_filter_eq_lookup {α : Type} {members : List (String × α)}
    (distinct : (members.map Prod.fst).Nodup) (name : String) :
    (members.filter (·.1 = name)).map Prod.snd = (members.lookup name).toList := by
  induction members with
  | nil => rfl
  | cons member rest inductionHypothesis =>
      obtain ⟨key, value⟩ := member
      obtain ⟨fresh, distinctRest⟩ := List.nodup_cons.mp distinct
      by_cases same : key = name
      · subst same
        have none : rest.filter (·.1 = key) = [] := by
          rw [List.filter_eq_nil_iff]
          intro other member isKey
          exact fresh (List.mem_map.mpr ⟨other, member, of_decide_eq_true isKey⟩)
        rw [List.lookup_cons_self, List.filter_cons_of_pos (by simp), none]
        rfl
      · rw [List.filter_cons_of_neg (by simpa using same), inductionHypothesis distinctRest,
          List.lookup_cons, beq_eq_false_iff_ne.mpr (Ne.symm same)]

theorem lookup_of_mem {α : Type} {members : List (String × α)}
    (distinct : (members.map Prod.fst).Nodup) {member : String × α} (listed : member ∈ members) :
    members.lookup member.1 = some member.2 := by
  induction members with
  | nil => nomatch listed
  | cons other rest inductionHypothesis =>
      obtain ⟨fresh, distinctRest⟩ := List.nodup_cons.mp distinct
      rcases List.mem_cons.mp listed with rfl | listed
      · exact List.lookup_cons_self
      · have different : member.1 ≠ other.1 := by
          intro same
          exact fresh (same ▸ List.mem_map_of_mem listed)
        rw [List.lookup_cons, beq_eq_false_iff_ne.mpr different]
        exact inductionHypothesis distinctRest listed

theorem lookup_map_snd {α β : Type} (f : α → β) (members : List (String × α)) (name : String) :
    (members.map fun member => (member.1, f member.2)).lookup name =
      (members.lookup name).map f := by
  induction members with
  | nil => rfl
  | cons member rest inductionHypothesis =>
      rw [List.map_cons, List.lookup_cons, List.lookup_cons, inductionHypothesis]
      cases name == member.1 <;> rfl

namespace Json.Tree

theorem field?_eq_lookup {members : List (String × Tree)} (distinct : (members.map Prod.fst).Nodup)
    (name : String) : field? members name = some (members.lookup name) := by
  have found := map_filter_eq_lookup distinct name
  rw [field?]
  cases looked : members.lookup name with
  | none =>
      rw [looked] at found
      rw [List.map_eq_nil_iff.mp found]
  | some value =>
      rw [looked] at found
      obtain ⟨member, rest, listed, rfl, ended⟩ := List.map_eq_cons_iff.mp found
      obtain rfl := List.map_eq_nil_iff.mp ended
      rw [listed]

end Json.Tree

theorem Json.membersNamed_eq_map_filter (name : String) (members : List (String × Json)) :
    membersNamed name members = (members.filter (·.1 = name)).map Prod.snd := by
  induction members with
  | nil => rfl
  | cons member rest inductionHypothesis =>
      rw [membersNamed] at inductionHypothesis ⊢
      by_cases same : member.1 = name <;> simp [same, inductionHypothesis]

theorem Action.onlyMember?_eq_lookup {members : List (String × Json)}
    (distinct : (members.map Prod.fst).Nodup) (name : String) :
    onlyMember? members name = members.lookup name := by
  rw [onlyMember?, Json.membersNamed_eq_map_filter, map_filter_eq_lookup distinct]
  cases members.lookup name <;> rfl

namespace Json

theorem itemTrees_eq_map (items : List Json) : itemTrees items = items.map tree := by
  induction items with
  | nil => rfl
  | cons item rest inductionHypothesis => rw [itemTrees, inductionHypothesis, List.map_cons]

theorem memberTrees_eq_map (members : List (String × Json)) :
    memberTrees members = members.map fun member => (some member.1, member.2.tree) := by
  induction members with
  | nil => rfl
  | cons member rest inductionHypothesis => rw [memberTrees, inductionHypothesis, List.map_cons]

/-- The fields of a written object are looked up by their names. -/
theorem fields?_tree {members : List (String × Json)} (distinct : (members.map Prod.fst).Nodup)
    (names : List String) : (Json.object members).tree.fields? names =
      some (names.map fun name => (members.lookup name).map tree) := by
  have keyed : Tree.keyed? (memberTrees members) =
      some (members.map fun member => (member.1, member.2.tree)) := by
    rw [memberTrees_eq_map, Tree.keyed?]
    exact mapM_map_eq_some fun member _ => rfl
  have sameNames : (members.map fun member => (member.1, member.2.tree)).map Prod.fst =
      members.map Prod.fst := by
    rw [List.map_map]
    rfl
  have looked (name : String) :
      Tree.field? (members.map fun member => (member.1, member.2.tree)) name =
        some ((members.lookup name).map tree) := by
    rw [Tree.field?_eq_lookup (sameNames ▸ distinct), lookup_map_snd]
  rw [tree, Tree.fields?, keyed, Option.bind_some]
  have all : (names.map id).mapM (Tree.field? (members.map fun member =>
      (member.1, member.2.tree))) = some (names.map fun name => (members.lookup name).map tree) :=
    mapM_map_eq_some fun name _ => looked name
  rwa [List.map_id] at all

end Json

end Records

section Actions

namespace Action

open Json

/-- The indices that an action names. -/
def indices : Action → List Nat
  | pick index | number index | unquote index | text index | singleton index | entries index =>
      [index]
  | cons head tail => [head, tail]
  | pair key value => [key, value]
  | constant _ | emptyList | emptyMap => []

/-- The value that an action gives by itself. -/
def constant? : Action → Option Value
  | constant value => some value
  | _ => none

/-- An action whose value, if it has one, holds no double. -/
def FloatFree (action : Action) : Prop :=
  ∀ value ∈ action.constant?, value.FloatFree

/-- An action that its record keeps, inside `room` containers. -/
structure IsWritable (room : Nat) (action : Action) : Prop where
  indexed : ∀ index ∈ action.indices, index ≤ maxWord
  plain : ∀ value ∈ action.constant?, value.IsPlainWithin room

section Writing

theorem isExact_index {room index : Nat} (indexed : index ≤ maxWord) :
    IsExact room (.int index) := by
  refine .int ?_ ?_ <;> omega

theorem asNat?_index {index : Nat} (indexed : index ≤ maxWord) :
    (Json.int index).asNat? = some index := by
  rw [maxWord] at indexed
  rw [asNat?, if_pos (by omega), Int.toNat_natCast]

theorem fieldNames?_kind (action : Action) :
    fieldNames? action.kind = some (action.fields.map Prod.fst) := by
  cases action <;> rfl

/-- The names in the record of an action are distinct. -/
theorem nodup_record (action : Action) :
    ((("kind", Json.string action.kind) :: action.fields).map Prod.fst).Nodup := by
  cases action <;> simp [fields]

variable {room : Nat} {action : Action}

theorem IsWritable.isExact_fields (writable : action.IsWritable room) :
    ∀ field ∈ action.fields, field.2.IsExact room := by
  have index {index : Nat} (named : index ∈ action.indices) : IsExact room (.int index) :=
    isExact_index (writable.indexed index named)
  cases action with
  | constant value =>
      exact List.forall_mem_singleton.mpr ((writable.plain value rfl).isExact _)
  | emptyList | emptyMap => exact List.forall_mem_nil _
  | cons | pair =>
      refine List.forall_mem_cons.mpr ⟨index List.mem_cons_self, List.forall_mem_singleton.mpr ?_⟩
      exact index (List.mem_cons_of_mem _ List.mem_cons_self)
  | pick | number | unquote | text | singleton | entries =>
      exact List.forall_mem_singleton.mpr (index List.mem_cons_self)

theorem IsWritable.isExact_toJson (writable : action.IsWritable room) :
    action.toJson.IsExact (room + 1) := by
  refine .object (List.forall_mem_cons.mpr ⟨?_, writable.isExact_fields⟩)
  exact .string action.kind

theorem IsWritable.ofFields?_fields (writable : action.IsWritable room) :
    ofFields? action.kind (action.fields.map Prod.snd) = some action := by
  have index {index : Nat} (named : index ∈ action.indices) :
      (Json.int index).asNat? = some index :=
    asNat?_index (writable.indexed index named)
  cases action with
  | constant value =>
      show some (constant (Value.ofJson value.toRecordJson)) = _
      rw [Value.toRecordJson, (writable.plain value rfl).ofJson_toJsonWith]
  | emptyList | emptyMap => rfl
  | cons | pair =>
      have first := index List.mem_cons_self
      have second := index (List.mem_cons_of_mem _ List.mem_cons_self)
      simp [kind, fields, ofFields?, first, second]
  | pick | number | unquote | text | singleton | entries =>
      have first := index List.mem_cons_self
      simp [kind, fields, ofFields?, first]

/-- An action is read from its record. -/
theorem IsWritable.ofJson?_toJson (writable : action.IsWritable room) :
    ofJson? action.toJson = some action := by
  have distinct := nodup_record action
  have kind : onlyMember? (("kind", .string action.kind) :: action.fields) "kind" =
      some (.string action.kind) := by
    rw [onlyMember?_eq_lookup distinct, List.lookup_cons_self]
  have fields : (action.fields.map Prod.fst).mapM
      (onlyMember? (("kind", .string action.kind) :: action.fields)) =
        some (action.fields.map Prod.snd) := by
    apply mapM_map_eq_some
    intro field listed
    rw [onlyMember?_eq_lookup distinct, lookup_of_mem distinct (List.mem_cons_of_mem _ listed)]
  rw [toJson, ofJson?]
  simp [kind, fieldNames?_kind, fields, writable.ofFields?_fields]

end Writing

section Reading

variable {room : Nat} {action : Action}

theorem le_of_asNat? {document : Json} {index : Nat} (read : document.asNat? = some index) :
    index ≤ maxWord := by
  cases document with
  | int n =>
      rw [asNat?] at read
      split at read
      next bounds =>
        obtain rfl := Option.some.inj read
        rw [maxWord]
        omega
      next => contradiction
  | null | bool | float | string | array | object => contradiction

/-- An action with indices only is fit to be written if they were read. -/
theorem isWritable_of_indices (none : action.constant? = none)
    (indexed : ∀ index ∈ action.indices, ∃ document : Json, document.asNat? = some index) :
    action.IsWritable room := by
  refine ⟨?_, ?_⟩
  · intro index named
    obtain ⟨document, read⟩ := indexed index named
    exact le_of_asNat? read
  · intro value isConstant
    rw [none] at isConstant
    contradiction

theorem isWritable_of_index {document : Json} {make : Nat → Action}
    (alone : ∀ index, (make index).constant? = none ∧ (make index).indices = [index])
    (read : document.asNat?.map make = some action) : action.IsWritable room := by
  obtain ⟨index, isIndex, rfl⟩ := Option.map_eq_some_iff.mp read
  refine isWritable_of_indices (alone index).1 ?_
  rw [(alone index).2]
  exact List.forall_mem_singleton.mpr ⟨document, isIndex⟩

theorem isWritable_of_pair {first second : Json} {make : Nat → Nat → Action}
    (alone : ∀ index other, (make index other).constant? = none ∧
      (make index other).indices = [index, other])
    (read : (do return make (← first.asNat?) (← second.asNat?)) = some action) :
    action.IsWritable room := by
  obtain ⟨index, isIndex, read⟩ := Option.bind_eq_some_iff.mp read
  obtain ⟨other, isOther, read⟩ := Option.bind_eq_some_iff.mp read
  obtain rfl := Option.some.inj read
  refine isWritable_of_indices (alone index other).1 ?_
  rw [(alone index other).2]
  exact List.forall_mem_cons.mpr ⟨⟨first, isIndex⟩, List.forall_mem_singleton.mpr ⟨second, isOther⟩⟩

theorem isWritable_of_ofFields? {kind : String} {fields : List Json}
    (plain : ∀ field ∈ fields, Value.PlainUnlessFloat room field)
    (read : ofFields? kind fields = some action) (floatFree : action.FloatFree) :
    action.IsWritable room := by
  rw [ofFields?.eq_def] at read
  split at read
  case h_2 value =>
    obtain rfl := Option.some.inj read
    refine ⟨List.forall_mem_nil _, ?_⟩
    intro value isConstant
    obtain rfl := Option.some.inj isConstant
    exact plain _ List.mem_cons_self (floatFree _ rfl)
  case h_7 => exact isWritable_of_pair (fun _ _ => ⟨rfl, rfl⟩) read
  case h_11 => exact isWritable_of_pair (fun _ _ => ⟨rfl, rfl⟩) read
  case h_8 =>
    obtain rfl := Option.some.inj read
    exact isWritable_of_indices rfl (List.forall_mem_nil _)
  case h_9 =>
    obtain rfl := Option.some.inj read
    exact isWritable_of_indices rfl (List.forall_mem_nil _)
  case h_12 => contradiction
  all_goals exact isWritable_of_index (fun _ => ⟨rfl, rfl⟩) read

/-- What is read from the members of an object is one of them. -/
theorem mem_of_onlyMember? {members : List (String × Json)} {name : String} {value : Json}
    (only : onlyMember? members name = some value) : ∃ member ∈ members, member.2 = value := by
  rw [onlyMember?, membersNamed_eq_map_filter] at only
  split at only
  next same =>
    obtain rfl := Option.some.inj only
    obtain ⟨member, _, listed, rfl, _⟩ := List.map_eq_cons_iff.mp same
    refine ⟨member, ?_, rfl⟩
    have found : member ∈ members.filter (·.1 = name) := listed ▸ List.mem_cons_self
    exact (List.mem_filter.mp found).1
  next => contradiction

/-- An action that was read is fit to be written unless it holds a double. -/
theorem isWritable_of_ofTree? {tree : Json.Tree} (read : ofTree? room tree = some action)
    (floatFree : action.FloatFree) : action.IsWritable (room - 1) := by
  obtain ⟨document, meant, read⟩ := Option.bind_eq_some_iff.mp read
  rw [ofJson?.eq_def] at read
  split at read
  next members =>
    have plain := Value.plain_members_of_toJson? meant
    split at read
    next kind isKind =>
      obtain ⟨names, areNames, read⟩ := Option.bind_eq_some_iff.mp read
      obtain ⟨fields, areFields, read⟩ := Option.bind_eq_some_iff.mp read
      refine isWritable_of_ofFields? ?_ read floatFree
      intro field listed
      obtain ⟨name, _, only⟩ := exists_of_mem_mapM areFields field listed
      obtain ⟨member, isMember, rfl⟩ := mem_of_onlyMember? only
      exact plain member isMember
    next => contradiction
  next kind fields =>
    have plain := Value.plain_items_of_toJson? meant
    refine isWritable_of_ofFields? ?_ read floatFree
    exact fun field listed => plain field (List.mem_cons_of_mem _ listed)
  next => contradiction

end Reading

end Action

end Actions

section Fields

namespace Json

/-- What is read for a field that may be left out. -/
def readOr {α : Type} (absent : α) (read : Tree → Option α) (field : Option Tree) : Option α :=
  match field with
  | some tree => read tree
  | none => some absent

theorem eq_of_orNull? {α : Type} {read : Tree → Option α} {tree : Tree} {value : α}
    (done : tree.orNull? read = some (some value)) : read tree = some value := by
  rw [Tree.orNull?.eq_def] at done
  split at done
  next => nomatch Option.some.inj done
  next =>
    obtain ⟨other, isRead, same⟩ := Option.map_eq_some_iff.mp done
    rw [isRead, same]

/-- A list is read from the array of what is written for its elements. -/
theorem asList?_map {α : Type} {read : Tree → Option α} {write : α → Json} {list : List α}
    (each : ∀ a ∈ list, read (write a).tree = some a) :
    (Json.array (list.map write)).tree.asList? read = some list := by
  have all : (list.map (tree ∘ write)).mapM read = some (list.map id) := mapM_map_eq_some each
  rw [tree, itemTrees_eq_map, List.map_map, Tree.asList?, all, List.map_id]

theorem asList?_strings (names : List String) :
    (Json.array (names.map .string)).tree.asList? Tree.asString? = some names :=
  asList?_map fun _ _ => rfl

theorem isExact_strings {room : Nat} (names : List String) :
    IsExact (room + 1) (.array (names.map .string)) := by
  refine .array (List.forall_mem_map.mpr ?_)
  exact fun name _ => .string name

end Json

end Fields

section Grammars

open Json

namespace ProductionDescription

variable {room : Nat} {production : ProductionDescription}

def FloatFree (production : ProductionDescription) : Prop :=
  ∀ action ∈ production.action, action.FloatFree

/-- A production that its record keeps, where its action stands inside `room` containers. -/
def IsWritable (room : Nat) (production : ProductionDescription) : Prop :=
  ∀ action ∈ production.action, action.IsWritable room

theorem ofTree?_of_fields {tree lhs : Json.Tree} {rhs action : Option Json.Tree}
    (fields : tree.fields? ["lhs", "rhs", "action"] = some [some lhs, rhs, action]) :
    ofTree? room tree = do
      let lhs ← lhs.asString?
      let rhs ← readOr [] (Json.Tree.asList? Json.Tree.asString?) rhs
      let action ← readOr none (Json.Tree.orNull? (Action.ofTree? (room - 1))) action
      return { lhs, rhs, action } := by
  rw [ofTree?, fields]
  cases rhs <;> cases action <;> rfl

/-- A production that was read is fit to be written unless it holds a double. -/
theorem isWritable_of_ofTree? {tree : Json.Tree} (read : ofTree? room tree = some production)
    (floatFree : production.FloatFree) : production.IsWritable (room - 2) := by
  have parts := read
  rw [ofTree?.eq_def] at parts
  split at parts
  next lhs rhs action fields =>
    rw [ofTree?_of_fields fields] at read
    obtain ⟨lhs, _, read⟩ := Option.bind_eq_some_iff.mp read
    obtain ⟨rhs, _, read⟩ := Option.bind_eq_some_iff.mp read
    obtain ⟨kept, isAction, read⟩ := Option.bind_eq_some_iff.mp read
    obtain rfl := Option.some.inj read
    intro written isWritten
    obtain rfl : kept = some written := isWritten
    cases action with
    | none => nomatch Option.some.inj isAction
    | some tree =>
        exact Action.isWritable_of_ofTree? (eq_of_orNull? isAction) (floatFree written rfl)
  next => contradiction

/-- The members of a production's record. -/
def members (production : ProductionDescription) : List (String × Json) :=
  [("lhs", .string production.lhs), ("rhs", .array (production.rhs.map .string))] ++
    (production.action.map fun action => ("action", action.toJson)).toList

theorem toJson_eq_object (production : ProductionDescription) :
    production.toJson = .object production.members := by
  obtain ⟨lhs, rhs, action⟩ := production
  cases action <;> rfl

theorem nodup_members (production : ProductionDescription) :
    (production.members.map Prod.fst).Nodup := by
  obtain ⟨lhs, rhs, action⟩ := production
  cases action <;> simp [members]

theorem fields?_toJson (production : ProductionDescription) :
    production.toJson.tree.fields? ["lhs", "rhs", "action"] =
      some [some (.string production.lhs), some (Json.array (production.rhs.map .string)).tree,
        production.action.map fun action => action.toJson.tree] := by
  rw [toJson_eq_object, fields?_tree (nodup_members production)]
  obtain ⟨lhs, rhs, action⟩ := production
  cases action <;> rfl

theorem IsWritable.isExact_toJson (writable : production.IsWritable room) :
    production.toJson.IsExact (room + 2) := by
  rw [toJson_eq_object]
  refine .object (List.forall_mem_append.mpr ⟨?_, ?_⟩)
  · exact List.forall_mem_cons.mpr ⟨.string _, List.forall_mem_singleton.mpr (isExact_strings _)⟩
  · intro member listed
    obtain ⟨action, isAction, rfl⟩ := Option.map_eq_some_iff.mp (Option.mem_toList.mp listed)
    exact (writable action isAction).isExact_toJson

/-- A production is read from its record. -/
theorem IsWritable.ofTree?_tree (writable : production.IsWritable room) :
    ofTree? (room + 2) production.toJson.tree = some production := by
  have action : readOr none (Json.Tree.orNull? (Action.ofTree? (room + 1)))
      (production.action.map fun action => action.toJson.tree) = some production.action := by
    cases isAction : production.action with
    | none => rfl
    | some action =>
        have writable := writable action isAction
        have read : Action.ofTree? (room + 1) action.toJson.tree = some action := by
          rw [Action.ofTree?, writable.isExact_toJson.toJson?_tree, Option.bind_some,
            writable.ofJson?_toJson]
        show (Action.ofTree? (room + 1) action.toJson.tree).map some = _
        rw [read]
        rfl
  have rhs : readOr [] (Json.Tree.asList? Json.Tree.asString?)
      (some (Json.array (production.rhs.map .string)).tree) = some production.rhs :=
    asList?_strings production.rhs
  rw [ofTree?_of_fields (fields?_toJson production)]
  simp [Json.Tree.asString?, rhs, action]

end ProductionDescription

namespace GrammarDescription

variable {description : GrammarDescription}

/-- No constant of the description holds a double. -/
def FloatFree (description : GrammarDescription) : Prop :=
  ∀ production ∈ description.productions, production.FloatFree

/-- How many containers may be entered inside the record of an action, which stands inside those of
the description, of the productions and of its production. -/
def actionRoom : Nat :=
  maxNesting - 4

/-- A description that its text keeps. -/
def IsWritable (description : GrammarDescription) : Prop :=
  ∀ production ∈ description.productions, production.IsWritable actionRoom

theorem ofTree?_of_fields {tree terminals productions : Json.Tree} {start : Option Json.Tree}
    (fields : tree.fields? ["start", "terminals", "productions"] =
      some [start, some terminals, some productions]) :
    ofTree? tree = do
      let start ← readOr none (Json.Tree.orNull? Json.Tree.asString?) start
      let terminals ← terminals.asList? Json.Tree.asString?
      let productions ← productions.asList? (ProductionDescription.ofTree? (actionRoom + 2))
      return { start, terminals, productions } := by
  rw [ofTree?, fields]
  cases start <;> rfl

/-- A description that was read is fit to be written unless it holds a double. -/
theorem isWritable_of_ofTree? {tree : Json.Tree} (read : ofTree? tree = some description)
    (floatFree : description.FloatFree) : description.IsWritable := by
  have parts := read
  rw [ofTree?.eq_def] at parts
  split at parts
  next start terminals productions fields =>
    rw [ofTree?_of_fields fields] at read
    obtain ⟨start, _, read⟩ := Option.bind_eq_some_iff.mp read
    obtain ⟨terminals, _, read⟩ := Option.bind_eq_some_iff.mp read
    obtain ⟨kept, areProductions, read⟩ := Option.bind_eq_some_iff.mp read
    obtain rfl := Option.some.inj read
    intro production listed
    rw [Json.Tree.asList?.eq_def] at areProductions
    split at areProductions
    next =>
      obtain ⟨tree, _, isProduction⟩ := exists_of_mem_mapM areProductions production listed
      exact ProductionDescription.isWritable_of_ofTree? isProduction (floatFree production listed)
    next => contradiction
  next => contradiction

theorem IsWritable.isExact_toJson (writable : description.IsWritable) :
    description.toJson.IsExact maxNesting := by
  have start : IsExact (actionRoom + 3) ((description.start.map Json.string).getD .null) := by
    cases description.start with
    | none => exact .null
    | some name => exact .string name
  have productions : IsExact (actionRoom + 3)
      (.array (description.productions.map ProductionDescription.toJson)) := by
    refine .array (List.forall_mem_map.mpr ?_)
    exact fun production listed => (writable production listed).isExact_toJson
  refine .object (List.forall_mem_cons.mpr ⟨start, List.forall_mem_cons.mpr ⟨?_, ?_⟩⟩)
  · exact isExact_strings description.terminals
  · exact List.forall_mem_singleton.mpr productions

theorem fields?_toJson (description : GrammarDescription) :
    description.toJson.tree.fields? ["start", "terminals", "productions"] =
      some [some ((description.start.map Json.string).getD .null).tree,
        some (Json.array (description.terminals.map .string)).tree,
        some (Json.array (description.productions.map ProductionDescription.toJson)).tree] := by
  rw [toJson, fields?_tree (by simp)]
  rfl

/-- A description is read from its record. -/
theorem IsWritable.ofTree?_tree (writable : description.IsWritable) :
    ofTree? description.toJson.tree = some description := by
  have start : readOr none (Json.Tree.orNull? Json.Tree.asString?)
      (some ((description.start.map Json.string).getD .null).tree) = some description.start := by
    cases description.start <;> rfl
  have productions : Json.Tree.asList? (ProductionDescription.ofTree? (actionRoom + 2))
      (Json.array (description.productions.map ProductionDescription.toJson)).tree =
        some description.productions :=
    asList?_map fun production listed => (writable production listed).ofTree?_tree
  rw [ofTree?_of_fields (fields?_toJson description)]
  simp [start, asList?_strings, productions]

/-- A description that was read from any text is read again from the text that is written for it,
unless a constant of it holds a double; so both texts describe one grammar, or have one fault. -/
theorem read?_write {text : String} (read : read? text = some description)
    (floatFree : description.FloatFree) :
    read? description.write = some description ∧
      Grammar.read description.write = Grammar.read text := by
  obtain ⟨tree, _, isDescription⟩ := Option.bind_eq_some_iff.mp read
  have writable := isWritable_of_ofTree? isDescription floatFree
  have again : read? description.write = some description := by
    rw [read?, write, writable.isExact_toJson.read?_compact, Option.bind_some,
      writable.ofTree?_tree]
  refine ⟨again, ?_⟩
  rw [Grammar.read, Grammar.read, read, again]

/-- A description in arrays and objects, with a field that is unknown, fields that are absent or
null, and a key that is given twice. -/
def mixedText : String :=
  "[null,[\"a\"],[\x7b\"note\":1e400,\"action\":\x7b\"value\":\x7b\"k\":[1],\"k\":\"\\n\"," ++
    "\"j\":[]\x7d,\"kind\":\"constant\"\x7d,\"lhs\":\"S\"\x7d,[\"S\",[\"a\"],[\"pick\",0]]]]"

/-- What `mixedText` describes. -/
def mixedDescription : GrammarDescription where
  start := none
  terminals := ["a"]
  productions :=
    [{ lhs := "S", rhs := [],
       action := some (.constant (.map [("j", .array []), ("k", .string "\n")])) },
     { lhs := "S", rhs := ["a"], action := some (.pick 0) }]

theorem read?_mixedText : read? mixedText = some mixedDescription := by
  cbv

theorem floatFree_mixedDescription : mixedDescription.FloatFree := by
  have constant : (Value.map [("j", .array []), ("k", .string "\n")]).FloatFree :=
    .map (List.forall_mem_cons.mpr
      ⟨.array (List.forall_mem_nil _), List.forall_mem_singleton.mpr (.string _)⟩)
  refine List.forall_mem_cons.mpr ⟨?_, List.forall_mem_singleton.mpr ?_⟩
  · intro action isAction value isConstant
    obtain rfl := Option.some.inj isAction
    obtain rfl := Option.some.inj isConstant
    exact constant
  · intro action isAction value isConstant
    obtain rfl := Option.some.inj isAction
    nomatch isConstant

theorem read?_write_mixedDescription :
    read? mixedText = some mixedDescription ∧ mixedDescription.FloatFree ∧
      read? mixedDescription.write = some mixedDescription ∧
        Grammar.read mixedDescription.write = Grammar.read mixedText :=
  ⟨read?_mixedText, floatFree_mixedDescription,
    read?_write read?_mixedText floatFree_mixedDescription⟩

end GrammarDescription

end Grammars

end EarleyChart
