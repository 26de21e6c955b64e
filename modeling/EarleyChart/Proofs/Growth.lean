import EarleyChart.Chart.Basic

/-!
Contract: how a chart grows.

`Chart.add` puts an item after the others of a column, which may be the one past the last. What the
chart then answers is told by `item?_add`, `find?_add`, `token?_add` and `size_add`, and
`insert_of_fresh` and `insert_of_found` say that insertion is this addition, or nothing if the
column holds the key; `insert_of_early` and `insert_of_beyond` are the insertions that are refused.
`Chart.Keyed` makes the keys of a column the inverse of its items; addition of a fresh key keeps it.
-/

namespace EarleyChart

/-- The order of discovery: an earlier column, or an earlier place of the same column. -/
def ItemRef.Before (first second : ItemRef) : Prop :=
  first.column < second.column ∨ first.column = second.column ∧ first.index < second.index

theorem ItemRef.before_wellFounded : WellFounded ItemRef.Before := by
  have lexicographic : WellFounded fun first second : ItemRef =>
      Prod.Lex Nat.lt Nat.lt (first.column, first.index) (second.column, second.index) :=
    InvImage.wf (fun place : ItemRef => (place.column, place.index))
      (Prod.lex Nat.lt_wfRel Nat.lt_wfRel).wf
  refine Subrelation.wf ?_ lexicographic
  intro first second before
  rcases before with earlier | ⟨same, earlier⟩
  · exact Prod.Lex.left _ _ earlier
  · rw [same]
    exact Prod.Lex.right _ earlier

namespace Chart

/-- Number of items in a column. -/
def width (chart : Chart) (column : Nat) : Nat :=
  ((chart.column? column).map (·.items.size)).getD 0

/-- The chart with an item after the others of a column. -/
def add (chart : Chart) (column : Nat) (item : Item) (token : Option Token) : Chart :=
  ⟨(chart.extend column token).columns.modify column (·.push item)⟩

/-- The keys of each column tell where its items stand. -/
def Keyed (chart : Chart) : Prop :=
  ∀ column key place, chart.find? column key = some place ↔
    place.column = column ∧ ∃ item, chart.item? place = some item ∧ item.key = key

variable {chart : Chart}

theorem column?_eq_none_iff {column : Nat} : chart.column? column = none ↔ chart.size ≤ column := by
  simp [column?, size]

theorem exists_column {column : Nat} (inside : column < chart.size) :
    ∃ found, chart.column? column = some found :=
  ⟨_, Array.getElem?_eq_getElem inside⟩

theorem item?_eq_some_iff {place : ItemRef} {item : Item} :
    chart.item? place = some item ↔
      ∃ column, chart.column? place.column = some column ∧ column.items[place.index]? = some item :=
  Option.bind_eq_some_iff

theorem item?_of_column? {column : Nat} {found : Column} (reached : chart.column? column = some found)
    (index : Nat) : chart.item? ⟨column, index⟩ = found.items[index]? := by
  change (chart.column? column).bind _ = _
  rw [reached]
  rfl

theorem column_lt_size {place : ItemRef} {item : Item} (found : chart.item? place = some item) :
    place.column < chart.size := by
  obtain ⟨column, present, _⟩ := item?_eq_some_iff.mp found
  exact (Array.getElem?_eq_some_iff.mp present).1

/-- A place holds an item exactly if its index is below the width of its column. -/
theorem index_lt_width_iff {place : ItemRef} :
    place.index < chart.width place.column ↔ ∃ item, chart.item? place = some item := by
  unfold width item?
  change _ < ((chart.columns[place.column]?).map _).getD 0 ↔ _
  cases chart.columns[place.column]? with
  | none => simp
  | some column =>
      simp only [Option.map_some, Option.getD_some, Option.bind_some]
      constructor
      · intro below
        exact ⟨column.items[place.index], Array.getElem?_eq_getElem below⟩
      · intro parts
        obtain ⟨item, found⟩ := parts
        exact (Array.getElem?_eq_some_iff.mp found).1

theorem exists_item_of_lt_width {column index : Nat} (below : index < chart.width column) :
    ∃ item, chart.item? ⟨column, index⟩ = some item := by
  have within : (ItemRef.mk column index).index < chart.width column := below
  exact index_lt_width_iff.mp within

section Addition

variable {column : Nat} {item : Item} {token : Option Token}

theorem size_add (reached : column ≤ chart.size) :
    (chart.add column item token).size = max chart.size (column + 1) := by
  unfold size at reached
  simp only [add, extend, size]
  split <;> simp <;> omega

theorem column?_add_self (reached : column ≤ chart.size) :
    (chart.add column item token).column? column =
      some (((chart.column? column).getD (Column.empty column token)).push item) := by
  unfold size at reached
  simp only [add, extend, column?]
  split
  next last =>
    subst last
    simp only [Array.getElem?_modify, if_true, Array.getElem?_push_size, Option.map_some]
    simp
  next inside =>
    have present : column < chart.columns.size := by omega
    simp [Array.getElem?_modify, Array.getElem?_eq_getElem present]

theorem column?_add_of_ne {other : Nat} (different : other ≠ column) :
    (chart.add column item token).column? other = chart.column? other := by
  have swapped : column ≠ other := different.symm
  simp only [add, extend, column?]
  split
  next last =>
    subst last
    simp only [Array.getElem?_modify, if_neg swapped, Array.getElem?_push, if_neg different]
  next => simp only [Array.getElem?_modify, if_neg swapped]

theorem item?_add (reached : column ≤ chart.size) (place : ItemRef) :
    (chart.add column item token).item? place =
      if place = ⟨column, chart.width column⟩ then some item else chart.item? place := by
  obtain ⟨placeColumn, index⟩ := place
  simp only [item?, ItemRef.mk.injEq]
  change ((chart.add column item token).column? placeColumn).bind _ =
    if _ then _ else (chart.column? placeColumn).bind _
  by_cases same : placeColumn = column
  · subst same
    rw [column?_add_self reached]
    cases present : chart.column? placeColumn with
    | none =>
        have empty : chart.width placeColumn = 0 := by simp [width, present]
        cases index <;> simp [Column.push, Column.empty, empty]
    | some found =>
        have counted : chart.width placeColumn = found.items.size := by simp [width, present]
        simp [Column.push, counted, Array.getElem?_push]
  · rw [column?_add_of_ne same]
    simp [same]

theorem token?_add (reached : column ≤ chart.size) (index : Nat) :
    (chart.add column item token).token? index =
      if index = chart.size ∧ index = column then token else chart.token? index := by
  unfold token?
  change ((chart.add column item token).column? index).bind _ =
    if _ then _ else (chart.column? index).bind _
  by_cases same : index = column
  · subst same
    rw [column?_add_self reached]
    cases present : chart.column? index with
    | none =>
        have outside : chart.size ≤ index := by
          simpa [column?, size] using present
        simp [Column.push, Column.empty, Nat.le_antisymm reached outside]
    | some found =>
        have inside : index < chart.size := (Array.getElem?_eq_some_iff.mp present).1
        simp [Column.push, Nat.ne_of_lt inside]
  · rw [column?_add_of_ne same]
    simp [same]

theorem find?_add (reached : column ≤ chart.size) (other : Nat) (key : ItemKey) :
    (chart.add column item token).find? other key =
      if other = column ∧ key = item.key then some ⟨column, chart.width column⟩
      else chart.find? other key := by
  unfold find?
  change (((chart.add column item token).column? other).bind _).map _ =
    if _ then _ else ((chart.column? other).bind _).map _
  by_cases same : other = column
  · subst same
    rw [column?_add_self reached]
    simp only [Column.push, Column.find?, Option.bind_some, Std.TreeMap.getElem?_insert,
      Std.LawfulEqOrd.compare_eq_iff_eq, true_and, eq_comm (a := item.key)]
    cases present : chart.column? other with
    | none =>
        have empty : chart.width other = 0 := by simp [width, present]
        by_cases keyed : key = item.key <;> simp [keyed, empty, Column.empty]
    | some found =>
        have counted : chart.width other = found.items.size := by simp [width, present]
        by_cases keyed : key = item.key <;> simp [keyed, counted]
  · rw [column?_add_of_ne same]
    simp [same]

theorem insert_of_early (early : column < item.origin) :
    chart.insert column item token =
      (chart, .error (.originAfterColumn item.origin column)) := by
  rw [insert, if_pos early]

theorem insert_of_beyond (origin : item.origin ≤ column) (beyond : chart.size < column) :
    chart.insert column item token = (chart, .error (.skippedColumn column chart.size)) := by
  unfold size at beyond
  have unextended : chart.extend column token = chart := by
    rw [extend, if_neg (Nat.ne_of_gt beyond)]
  have outside : chart.columns[column]? = none :=
    column?_eq_none_iff.mpr (Nat.le_of_lt beyond)
  simp [insert, Nat.not_lt.mpr origin, unextended, outside, size]

theorem insert_of_found {place : ItemRef} (origin : item.origin ≤ column)
    (found : chart.find? column item.key = some place) :
    chart.insert column item token = (chart, .ok (.duplicate place)) := by
  obtain ⟨index, inColumn, rfl⟩ := Option.map_eq_some_iff.mp found
  obtain ⟨present, presentAt, keyed⟩ := Option.bind_eq_some_iff.mp inColumn
  have inside : column < chart.columns.size := (Array.getElem?_eq_some_iff.mp presentAt).1
  have unextended : chart.extend column token = chart := by
    simp [extend, Nat.ne_of_lt inside]
  simp [insert, Nat.not_lt.mpr origin, unextended, presentAt, keyed]

theorem insert_of_fresh (origin : item.origin ≤ column) (reached : column ≤ chart.size)
    (fresh : chart.find? column item.key = none) :
    chart.insert column item token =
      (chart.add column item token, .ok (.added ⟨column, chart.width column⟩)) := by
  have extended : (chart.extend column token).columns[column]? =
      some ((chart.column? column).getD (Column.empty column token)) := by
    unfold size at reached
    simp only [extend, column?]
    split
    next last => subst last; simp
    next inside =>
      have present : column < chart.columns.size := by omega
      simp [Array.getElem?_eq_getElem present]
  have unkeyed : ((chart.column? column).getD (Column.empty column token)).find? item.key = none := by
    cases present : chart.column? column with
    | none => simp [Column.empty, Column.find?]
    | some found =>
        change ((chart.column? column).bind _).map _ = none at fresh
        rw [present] at fresh
        simpa using fresh
  have counted : ((chart.column? column).getD (Column.empty column token)).items.size =
      chart.width column := by
    cases present : chart.column? column <;> simp [width, present, Column.empty]
  simp [insert, Nat.not_lt.mpr origin, extended, unkeyed, counted, add]

/-- What insertion can do to a chart: nothing, or the addition of an item that its column lacks. -/
theorem insert_cases (chart : Chart) (column : Nat) (item : Item) (token : Option Token) :
    (∃ result, chart.insert column item token = (chart, result) ∧
        ∀ place, result ≠ .ok (.added place)) ∨
      item.origin ≤ column ∧ column ≤ chart.size ∧ chart.find? column item.key = none ∧
        chart.insert column item token =
          (chart.add column item token, .ok (.added ⟨column, chart.width column⟩)) := by
  by_cases early : column < item.origin
  · exact .inl ⟨_, insert_of_early early, by simp⟩
  · have origin := Nat.le_of_not_lt early
    cases held : chart.find? column item.key with
    | some place => exact .inl ⟨_, insert_of_found origin held, by simp⟩
    | none =>
        by_cases reached : column ≤ chart.size
        · exact .inr ⟨origin, reached, rfl, insert_of_fresh origin reached held⟩
        · exact .inl ⟨_, insert_of_beyond origin (Nat.lt_of_not_le reached), by simp⟩

/-- Addition of a fresh key keeps keys and items in step. -/
theorem Keyed.add (keyed : chart.Keyed) (reached : column ≤ chart.size)
    (fresh : chart.find? column item.key = none) : (chart.add column item token).Keyed := by
  intro other key place
  rw [find?_add reached, item?_add reached]
  have vacant : chart.item? ⟨column, chart.width column⟩ = none := by
    rw [Option.eq_none_iff_forall_ne_some]
    intro occupant occupied
    exact Nat.lt_irrefl _ (index_lt_width_iff.mpr ⟨occupant, occupied⟩)
  by_cases isNew : place = ⟨column, chart.width column⟩
  · subst isNew
    simp only [if_true, Option.some.injEq, exists_eq_left']
    by_cases sought : other = column ∧ key = item.key
    · simp [sought]
    · rw [if_neg sought, keyed other key]
      simp only [vacant, reduceCtorEq, false_and, exists_false, and_false, false_iff]
      intro parts
      obtain ⟨rfl, rfl⟩ := parts
      exact sought ⟨rfl, rfl⟩
  · simp only [if_neg isNew]
    by_cases sought : other = column ∧ key = item.key
    · obtain ⟨rfl, rfl⟩ := sought
      simp only [and_self, if_true, Option.some.injEq]
      constructor
      · intro same
        exact absurd same.symm isNew
      · intro present
        have found := (keyed _ _ place).mpr present
        rw [fresh] at found
        contradiction
    · rw [if_neg sought]
      exact keyed other key place

end Addition

theorem eq_of_item?_seeded {item found : Item} {place : ItemRef}
    (present : (Chart.seeded item).item? place = some found) : place = ⟨0, 0⟩ ∧ item = found := by
  obtain ⟨column, index⟩ := place
  have first : column = 0 := by
    have inside := column_lt_size present
    simpa [seeded, size] using inside
  subst first
  cases index with
  | zero => exact ⟨rfl, Option.some.inj present⟩
  | succ => simp [item?, seeded, Column.empty, Column.push] at present

theorem keyed_seeded (item : Item) : (Chart.seeded item).Keyed := by
  have empty : (Chart.empty).Keyed := by
    intro column key place
    simp [find?, item?, Chart.empty]
  have added : Chart.seeded item = Chart.empty.add 0 item none := by
    simp [seeded, add, extend, Chart.empty]
  rw [added]
  exact empty.add (Nat.zero_le _) (by simp [find?, Chart.empty])

end Chart

end EarleyChart
