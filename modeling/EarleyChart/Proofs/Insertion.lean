import EarleyChart.Proofs.Coherence

/-!
Contract: what insertion keeps of a chart, called in any order with any items, columns and tokens.

`Chart.Answers` lists what a call can answer together with the chart that it leaves: two refusals and
the item that is held already, all of which leave the chart alone, and the addition of the one item to a
column that exists or to the one past the last. `Chart.Orderly` is what every answer keeps
(`Chart.Orderly.insert`), by induction over the calls of a chart's whole history
(`Chart.orderly_insertAll`). Addresses never come to denote another item (`Chart.item?_insertAll`).
-/

namespace EarleyChart

/-- A column whose key map and items are each other's inverse. -/
structure Column.Sound (column : Column) (index : Nat) : Prop where
  indexed : column.index = index
  keys : ∀ key (place : Nat), column.keys[key]? = some place ↔
    ∃ item, column.items[place]? = some item ∧ item.key = key
  distinct : (column.items.toList.map Item.key).Nodup
  origins : ∀ item ∈ column.items, item.origin ≤ index

namespace Chart

/-- A call that inserts an item. -/
structure Call where
  column : Nat
  item : Item
  token : Option Token
deriving Inhabited

/-- The chart after some calls, whatever they answer. -/
def insertAll (chart : Chart) (calls : List Call) : Chart :=
  calls.foldl (fun chart call => (chart.insert call.column call.item call.token).1) chart

/-- What a call leaves of a chart, and its answer. -/
inductive Answers (before : Chart) (call : Call) : Chart × Except ChartFault Insertion → Prop where
  /-- The item begins behind the column. -/
  | early (early : call.column < call.item.origin) :
      Answers before call (before, .error (.originAfterColumn call.item.origin call.column))
  /-- The column is not even the one past the last. -/
  | beyond (origin : call.item.origin ≤ call.column) (beyond : before.size < call.column) :
      Answers before call (before, .error (.skippedColumn call.column before.size))
  /-- The column holds the key, at the place in the answer. -/
  | held (origin : call.item.origin ≤ call.column) {index : Nat} {item : Item}
      (present : before.item? ⟨call.column, index⟩ = some item) (sameKey : item.key = call.item.key) :
      Answers before call (before, .ok (.duplicate ⟨call.column, index⟩))
  /-- The item comes behind the others of its column. -/
  | appended (origin : call.item.origin ≤ call.column) {former grown : Column} {after : Chart}
      (present : before.column? call.column = some former)
      (fresh : ∀ item ∈ former.items, item.key ≠ call.item.key) (size : after.size = before.size)
      (grows : after.column? call.column = some grown)
      (items : grown.items = former.items.push call.item) (token : grown.token = former.token)
      (elsewhere : ∀ other, other ≠ call.column → after.column? other = before.column? other) :
      Answers before call (after, .ok (.added ⟨call.column, former.items.size⟩))
  /-- The item is the first of a column past the last, which keeps the token of the call. -/
  | opened (origin : call.item.origin ≤ call.column) {grown : Column} {after : Chart}
      (next : call.column = before.size) (size : after.size = before.size + 1)
      (grows : after.column? call.column = some grown) (items : grown.items = #[call.item])
      (token : grown.token = call.token)
      (elsewhere : ∀ other, other ≠ call.column → after.column? other = before.column? other) :
      Answers before call (after, .ok (.added ⟨call.column, 0⟩))

/-- Columns know their place, key maps their items, and no item begins behind its column. -/
structure Orderly (chart : Chart) : Prop where
  indexed : ∀ {index column}, chart.column? index = some column → column.index = index
  keyed : chart.Keyed
  origins : ∀ {place item}, chart.item? place = some item → item.origin ≤ place.column

section Orderly

variable {chart : Chart} {column : Nat} {item : Item} {token : Option Token}

/-- In an orderly chart a column's keys are those of its items. -/
theorem Orderly.keys_iff (orderly : chart.Orderly) {found : Column}
    (reached : chart.column? column = some found) (key : ItemKey) (index : Nat) :
    found.keys[key]? = some index ↔ ∃ item, found.items[index]? = some item ∧ item.key = key := by
  have held := orderly.keyed column key ⟨column, index⟩
  rw [item?_of_column? reached] at held
  have looked : chart.find? column key = (found.keys[key]?).map (ItemRef.mk column) := by
    change ((chart.column? column).bind _).map _ = _
    rw [reached]
    rfl
  rw [looked] at held
  simpa using held

theorem Orderly.sound (orderly : chart.Orderly) {found : Column}
    (reached : chart.column? column = some found) : found.Sound column where
  indexed := orderly.indexed reached
  keys := orderly.keys_iff reached
  distinct := by
    -- Two places of one key are both the one that the map has for it.
    rw [List.nodup_iff_injective_getElem]
    intro first second same
    simp only [List.getElem_map, Array.getElem_toList] at same
    have mapped (place : Fin (found.items.toList.map Item.key).length)
        (inside : place < found.items.size) :
        found.keys[found.items[place].key]? = some place.val :=
      (orderly.keys_iff reached _ _).mpr ⟨_, Array.getElem?_eq_getElem inside, rfl⟩
    have firstMapped := mapped first (by simpa using first.isLt)
    have secondMapped := mapped second (by simpa using second.isLt)
    exact Fin.ext (Option.some.inj (firstMapped.symm.trans (same ▸ secondMapped)))
  origins := by
    intro item member
    obtain ⟨index, present⟩ := Array.mem_iff_getElem?.mp member
    have held : chart.item? ⟨column, index⟩ = some item :=
      (item?_of_column? reached index).trans present
    exact orderly.origins held

/-- Addition of an item with a fresh key that begins in its column or before. -/
theorem Orderly.add (orderly : chart.Orderly) (origin : item.origin ≤ column)
    (reached : column ≤ chart.size) (fresh : chart.find? column item.key = none) :
    (chart.add column item token).Orderly where
  indexed := by
    intro index found present
    by_cases same : index = column
    · subst same
      rw [column?_add_self reached] at present
      obtain rfl := Option.some.inj present
      change ((chart.column? index).getD (Column.empty index token)).index = index
      cases reachedBefore : chart.column? index with
      | none => rfl
      | some former => exact orderly.indexed reachedBefore
    · rw [column?_add_of_ne same] at present
      exact orderly.indexed present
  keyed := orderly.keyed.add reached fresh
  origins := by
    intro place found present
    rw [item?_add reached] at present
    split at present
    next isNew =>
      obtain rfl := Option.some.inj present
      rw [isNew]
      exact origin
    next => exact orderly.origins present

theorem orderly_seeded {seed : Item} (origin : seed.origin = 0) : (Chart.seeded seed).Orderly where
  indexed := by
    intro index found present
    have inside := (Array.getElem?_eq_some_iff.mp present).1
    obtain rfl : index = 0 := by
      simpa [Chart.seeded] using inside
    obtain rfl := Option.some.inj present
    rfl
  keyed := keyed_seeded seed
  origins := by
    intro place found present
    obtain ⟨rfl, rfl⟩ := eq_of_item?_seeded present
    exact Nat.le_of_eq origin

/-- A chart whose keys are those of its items answers each call by one of the five answers. -/
theorem Keyed.answers (keyed : chart.Keyed) (call : Call) :
    chart.Answers call (chart.insert call.column call.item call.token) := by
  by_cases early : call.column < call.item.origin
  · rw [insert_of_early early]
    exact .early early
  · have origin := Nat.le_of_not_lt early
    by_cases beyond : chart.size < call.column
    · rw [insert_of_beyond origin beyond]
      exact .beyond origin beyond
    · have reached := Nat.le_of_not_lt beyond
      cases found : chart.find? call.column call.item.key with
      | some place =>
          rw [insert_of_found origin found]
          obtain ⟨sameColumn, item, present, sameKey⟩ := (keyed _ _ _).mp found
          obtain ⟨column, index⟩ := place
          obtain rfl : column = call.column := sameColumn
          exact .held origin present sameKey
      | none =>
          rw [insert_of_fresh origin reached found]
          have grows : (chart.add call.column call.item call.token).column? call.column = _ :=
            column?_add_self reached
          have elsewhere (other : Nat) (different : other ≠ call.column) :
              (chart.add call.column call.item call.token).column? other = chart.column? other :=
            column?_add_of_ne different
          cases present : chart.column? call.column with
          | some former =>
              have counted : chart.width call.column = former.items.size := by
                rw [width, present]
                rfl
              have size : (chart.add call.column call.item call.token).size = chart.size := by
                have inside := (Array.getElem?_eq_some_iff.mp present).1
                rw [size_add reached]
                exact Nat.max_eq_left inside
              rw [present] at grows
              rw [counted]
              refine .appended origin present ?_ size grows rfl rfl elsewhere
              intro item member sameKey
              obtain ⟨index, held⟩ := Array.mem_iff_getElem?.mp member
              have mapped := (keyed call.column call.item.key ⟨call.column, index⟩).mpr
                ⟨rfl, item, (item?_of_column? present index).trans held, sameKey⟩
              rw [found] at mapped
              contradiction
          | none =>
              have next : call.column = chart.size :=
                Nat.le_antisymm reached (column?_eq_none_iff.mp present)
              have counted : chart.width call.column = 0 := by
                rw [width, present]
                rfl
              have size : (chart.add call.column call.item call.token).size = chart.size + 1 := by
                rw [size_add reached, next]
                omega
              rw [present] at grows
              rw [counted]
              exact .opened origin next size grows rfl rfl elsewhere

/-- Every insertion keeps a chart orderly. -/
theorem Orderly.insert (orderly : chart.Orderly) (column : Nat) (item : Item)
    (token : Option Token) : (chart.insert column item token).1.Orderly := by
  rcases chart.insert_cases column item token with
    ⟨_, unchanged, _⟩ | ⟨origin, reached, fresh, added⟩
  · rw [unchanged]
    exact orderly
  · rw [added]
    exact orderly.add origin reached fresh

/-- No insertion moves, changes or drops an item. -/
theorem item?_insert {place : ItemRef} {found : Item} (present : chart.item? place = some found)
    (column : Nat) (item : Item) (token : Option Token) :
    (chart.insert column item token).1.item? place = some found := by
  rcases chart.insert_cases column item token with ⟨_, unchanged, _⟩ | ⟨_, reached, _, added⟩
  · rw [unchanged]
    exact present
  · rw [added]
    exact (Grows.add reached).items present

end Orderly

theorem Orderly.insertAll {chart : Chart} (orderly : chart.Orderly) (calls : List Call) :
    (chart.insertAll calls).Orderly := by
  induction calls generalizing chart with
  | nil => exact orderly
  | cons call rest inductionHypothesis =>
      exact inductionHypothesis (orderly.insert call.column call.item call.token)

theorem item?_insertAll {chart : Chart} {place : ItemRef} {found : Item}
    (present : chart.item? place = some found) (calls : List Call) :
    (chart.insertAll calls).item? place = some found := by
  induction calls generalizing chart with
  | nil => exact present
  | cons call rest inductionHypothesis =>
      exact inductionHypothesis (item?_insert present call.column call.item call.token)

/-- After any calls on a seeded chart its columns are sound, the next call answers in one of the five
ways, and the addresses of the chart denote the same items after any further calls. -/
theorem insertAll_seeded_stays_sound {seed : Item} (origin : seed.origin = 0) (calls : List Call) :
    (∀ index column, ((Chart.seeded seed).insertAll calls).column? index = some column →
        column.Sound index) ∧
      (∀ call : Call, ((Chart.seeded seed).insertAll calls).Answers call
        (((Chart.seeded seed).insertAll calls).insert call.column call.item call.token)) ∧
      ∀ further place item, ((Chart.seeded seed).insertAll calls).item? place = some item →
        (((Chart.seeded seed).insertAll calls).insertAll further).item? place = some item := by
  have orderly := (orderly_seeded origin).insertAll calls
  refine ⟨?_, ?_, ?_⟩
  · intro index column reached
    exact orderly.sound reached
  · intro call
    exact orderly.keyed.answers call
  · intro further place item present
    exact item?_insertAll present further

/-- Calls of all kinds: an addition, an item of the same key, a column too far, an origin behind its
column, and the first item of the next column. -/
def mixedCalls : List Call :=
  [⟨0, ⟨1, 0, 0, .matched [], .predicted ⟨0, 0⟩⟩, none⟩,
    ⟨0, ⟨1, 0, 0, .reduced (.bool true), .predicted ⟨0, 1⟩⟩, none⟩,
    ⟨2, ⟨0, 1, 0, .matched [], .seed⟩, none⟩,
    ⟨0, ⟨0, 1, 1, .matched [], .seed⟩, none⟩,
    ⟨1, ⟨0, 1, 0, .matched [], .scanned ⟨0, 0⟩⟩, some ⟨"number", "1", 1, 1, 0⟩⟩]

/-- Of the mixed calls the first and the last add an item, which making all of them once more does not
move. -/
theorem mixedCalls_stay_sound :
    ∃ seed first second item, seed.origin = 0 ∧
      ((Chart.seeded seed).insertAll mixedCalls).column? 0 = some first ∧ first.Sound 0 ∧
      ((Chart.seeded seed).insertAll mixedCalls).column? 1 = some second ∧ second.Sound 1 ∧
      ((Chart.seeded seed).insertAll mixedCalls).size = 2 ∧
      ((Chart.seeded seed).insertAll mixedCalls).itemCount = 3 ∧
      ((Chart.seeded seed).insertAll mixedCalls).item? ⟨0, 1⟩ = some item ∧
      item.provenance = .predicted ⟨0, 0⟩ ∧
      (((Chart.seeded seed).insertAll mixedCalls).insertAll mixedCalls).item? ⟨0, 1⟩ = some item := by
  let seed : Item := ⟨0, 0, 0, .matched [], .seed⟩
  have origin : seed.origin = 0 := rfl
  obtain ⟨sound, _, stays⟩ := insertAll_seeded_stays_sound origin mixedCalls
  have sized : ((Chart.seeded seed).insertAll mixedCalls).size = 2 ∧
      ((Chart.seeded seed).insertAll mixedCalls).itemCount = 3 := by
    decide +kernel
  have provenance : (((Chart.seeded seed).insertAll mixedCalls).item? ⟨0, 1⟩).map Item.provenance =
      some (.predicted ⟨0, 0⟩) := by
    decide +kernel
  obtain ⟨item, held, predicted⟩ := Option.map_eq_some_iff.mp provenance
  have secondInside : 1 < ((Chart.seeded seed).insertAll mixedCalls).size := by omega
  obtain ⟨first, firstReached⟩ := exists_column (Nat.lt_trans Nat.zero_lt_one secondInside)
  obtain ⟨second, secondReached⟩ := exists_column secondInside
  exact ⟨seed, first, second, item, origin, firstReached, sound 0 first firstReached, secondReached,
    sound 1 second secondReached, sized.1, sized.2, held, predicted, stays mixedCalls _ _ held⟩

end Chart

end EarleyChart
