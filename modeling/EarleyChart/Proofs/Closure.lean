import Mathlib.Algebra.GroupWithZero.Nat
import Mathlib.Data.List.Nodup
import Mathlib.Data.List.ProdSigma
import EarleyChart.Proofs.Steps

/-!
Contract: closed columns.

A column is closed when all its items are settled. Closing a column gets there: its items have distinct
keys, so that there are no more of them than the budget of the loop, and an item that is settled
stays so while the chart grows behind it. Scanning then moves every item of the column that expects
the next token, or tells that there is none.
-/

namespace EarleyChart

namespace Engine

variable {grammar : Grammar} {tokens : List Token} {limits : Limits} {column : Nat}
  {state : ParseState}

/-- The items of a column are all settled. -/
def ColumnSettled (grammar : Grammar) (chart : Chart) (column : Nat) : Prop :=
  ∀ {place item}, place.column = column → chart.item? place = some item →
    Settled grammar chart place item

theorem Settled.grows {before after : Chart} {place : ItemRef} {item : Item}
    (settled : Settled grammar before place item) (present : before.item? place = some item)
    (origin : item.origin ≤ place.column) (later : place.column ≤ column)
    (grows : before.Grows column after) : Settled grammar after place item := by
  -- Up to the item's place the chart has not changed.
  have same {other : ItemRef} (reached : other.column ≤ place.column)
      (earlier : other.column = place.column → other.index < place.index) :
      after.item? other = before.item? other := by
    by_cases last : other.column = column
    · have inPlace : other.column = place.column := by omega
      have below := Chart.index_lt_width_iff.mpr ⟨item, present⟩
      have otherBelow := earlier inPlace
      exact grows.item?_eq (by rw [inPlace]; omega)
    · exact grows.elsewhere last
  refine ⟨?_, ?_⟩
  · intro symbol awaited nonterminal
    obtain ⟨started, skipped⟩ := settled.predicts awaited nonterminal
    refine ⟨fun id member => (started id member).grows grows, ?_⟩
    intro nullable child inner value childColumn earlier innerPresent innerOrigin completes
    rw [same (Nat.le_of_eq childColumn) (fun _ => earlier)] at innerPresent
    exact (skipped nullable childColumn earlier innerPresent innerOrigin completes).grows grows
  · intro symbol value completes parent earlier parentColumn before earlierPresent awaited
    rw [same (parentColumn ▸ origin) (fun inPlace => before (parentColumn ▸ inPlace))]
      at earlierPresent
    exact (settled.resumes completes parentColumn before earlierPresent awaited).grows grows

theorem ColumnSettled.grows {before after : Chart} {settledColumn : Nat}
    (consistent : grammar.Consistent) (coherent : Coherent grammar tokens before)
    (settled : ColumnSettled grammar before settledColumn) (earlier : settledColumn < column)
    (grows : before.Grows column after) : ColumnSettled grammar after settledColumn := by
  intro place item inColumn present
  rw [grows.elsewhere (by omega)] at present
  have origin := coherent.origin_le consistent present
  exact (settled inColumn present).grows present origin (by omega) grows

/-- Production, dot and origin of the items that a column can hold. -/
def possibleItems (grammar : Grammar) (column : Nat) : List (ProductionId × Nat × Nat) :=
  grammar.productions.toList.zipIdx.flatMap fun entry =>
    (List.range (column + 1) ×ˢ List.range (entry.1.rhs.length + 1)).map fun pair =>
      (entry.2, pair.2, pair.1)

theorem dotCount_eq_sum (grammar : Grammar) : grammar.dotCount =
    (grammar.productions.toList.map fun production => production.rhs.length + 1).sum := by
  rw [Grammar.dotCount, ← Array.foldl_toList, List.sum_eq_foldl, List.foldl_map]

theorem length_possibleItems (grammar : Grammar) (column : Nat) :
    (possibleItems grammar column).length = itemBudget grammar column := by
  have counted : (possibleItems grammar column).length =
      ((grammar.productions.toList.zipIdx.map Prod.fst).map fun production =>
        (column + 1) * (production.rhs.length + 1)).sum := by
    simp only [possibleItems, List.length_flatMap, List.length_map, List.length_product,
      List.length_range, List.map_map, Function.comp_def]
  rw [counted, List.zipIdx_map_fst, itemBudget, dotCount_eq_sum]
  induction grammar.productions.toList with
  | nil => simp
  | cons production rest inductionHypothesis =>
      rw [List.map_cons, List.map_cons, List.sum_cons, List.sum_cons, inductionHypothesis,
        ← Nat.mul_add]

theorem mem_possibleItems {item : Item} (reads : item.Reads grammar tokens column) :
    (item.production, item.dot, item.origin) ∈ possibleItems grammar column := by
  obtain ⟨production, _, found, bounded, origin, _, _⟩ := reads
  have listed : (production, item.production) ∈ grammar.productions.toList.zipIdx := by
    rw [List.mem_zipIdx_iff_getElem?, Array.getElem?_toList]
    exact found
  refine List.mem_flatMap.mpr ⟨_, listed, List.mem_map.mpr ⟨(item.origin, item.dot), ?_, rfl⟩⟩
  exact List.pair_mem_product.mpr
    ⟨List.mem_range.mpr (Nat.lt_succ_of_le origin), List.mem_range.mpr (Nat.lt_succ_of_le bounded)⟩

/-- The items of a column fit into the budget of the loop that closes it. -/
theorem width_le_itemBudget {chart : Chart} (consistent : grammar.Consistent)
    (coherent : Coherent grammar tokens chart) (column : Nat) :
    chart.width column ≤ itemBudget grammar column := by
  let parts (index : Nat) : ProductionId × Nat × Nat :=
    ((chart.item? ⟨column, index⟩).map fun item =>
      (item.production, item.dot, item.origin)).getD default
  have distinct : ((List.range (chart.width column)).map parts).Nodup := by
    refine List.Nodup.map_on ?_ List.nodup_range
    intro first firstBelow second secondBelow same
    obtain ⟨firstItem, firstPresent⟩ :=
      Chart.exists_item_of_lt_width (List.mem_range.mp firstBelow)
    obtain ⟨secondItem, secondPresent⟩ :=
      Chart.exists_item_of_lt_width (List.mem_range.mp secondBelow)
    have sameKey : firstItem.key = secondItem.key := by
      simp only [parts, firstPresent, secondPresent, Option.map_some, Option.getD_some,
        Prod.mk.injEq] at same
      simp [Item.key, same]
    have firstFound := (coherent.keyed column firstItem.key _).mpr ⟨rfl, _, firstPresent, rfl⟩
    have secondFound := (coherent.keyed column secondItem.key _).mpr ⟨rfl, _, secondPresent, rfl⟩
    rw [sameKey, secondFound] at firstFound
    exact (ItemRef.mk.inj (Option.some.inj firstFound)).2.symm
  have possible : (List.range (chart.width column)).map parts ⊆ possibleItems grammar column := by
    intro triple member
    obtain ⟨index, below, rfl⟩ := List.mem_map.mp member
    obtain ⟨item, present⟩ := Chart.exists_item_of_lt_width (List.mem_range.mp below)
    have listed := mem_possibleItems (coherent.reads consistent present)
    simpa [parts, present] using listed
  have counted := (distinct.subperm possible).length_le
  rwa [List.length_map, List.length_range, length_possibleItems] at counted

/-- The items of a column before a place are settled. -/
def SettledBelow (grammar : Grammar) (chart : Chart) (column limit : Nat) : Prop :=
  ∀ {index item}, index < limit → chart.item? ⟨column, index⟩ = some item →
    Settled grammar chart ⟨column, index⟩ item

theorem columnSettled_of_width_le {chart : Chart} {limit : Nat}
    (settled : SettledBelow grammar chart column limit) (all : chart.width column ≤ limit) :
    ColumnSettled grammar chart column := by
  intro place item inColumn present
  subst inColumn
  have below := Chart.index_lt_width_iff.mpr ⟨item, present⟩
  exact settled (Nat.lt_of_lt_of_le below all) present

theorem ends_closeFrom (consistent : grammar.Consistent) (bound next : Nat)
    (coherent : Coherent grammar tokens state.chart)
    (settled : SettledBelow grammar state.chart column next)
    (enough : itemBudget grammar column < next + bound) :
    Ends (closeFrom grammar limits column bound next) state
      (fun _ closed => Progress grammar tokens column state closed ∧
        ColumnSettled grammar closed.chart column)
      (Overflow grammar tokens limits column state) := by
  induction bound generalizing next state with
  | zero =>
      have fits := width_le_itemBudget consistent coherent column
      exact ⟨⟨coherent, .refl _⟩, columnSettled_of_width_le settled (by omega)⟩
  | succ bound inductionHypothesis =>
      unfold closeFrom
      rw [ends_bind, ends_getChart]
      cases present : state.chart.item? ⟨column, next⟩ with
      | none =>
          refine ⟨⟨coherent, .refl _⟩, columnSettled_of_width_le settled ?_⟩
          by_contra more
          obtain ⟨item, found⟩ := Chart.exists_item_of_lt_width (Nat.lt_of_not_le more)
          rw [present] at found
          contradiction
      | some item =>
          dsimp only
          rw [ends_bind]
          refine (ends_process consistent coherent present).mono ?_ (fun _ _ stops => stops)
          intro _ middle processed
          obtain ⟨progress, settledHere⟩ := processed
          have settledMiddle : SettledBelow grammar middle.chart column (next + 1) := by
            intro index other below otherPresent
            by_cases last : index = next
            · subst last
              rw [progress.grows.items present] at otherPresent
              obtain rfl := Option.some.inj otherPresent
              exact settledHere
            · have nextBelow : next < state.chart.width column :=
                Chart.index_lt_width_iff.mpr ⟨item, present⟩
              have indexBelow : (ItemRef.mk column index).index < state.chart.width column := by
                change index < _
                omega
              rw [progress.grows.item?_eq indexBelow] at otherPresent
              have origin := coherent.origin_le consistent otherPresent
              exact (settled (by omega) otherPresent).grows otherPresent origin (Nat.le_refl _)
                progress.grows
          refine (inductionHypothesis (next + 1) progress.coherent settledMiddle (by omega)).mono ?_
            (fun _ _ stops => stops.after progress)
          intro _ closed closes
          exact ⟨progress.trans closes.1, closes.2⟩

theorem ends_closeColumn (consistent : grammar.Consistent)
    (coherent : Coherent grammar tokens state.chart) :
    Ends (closeColumn grammar limits column) state
      (fun _ closed => Progress grammar tokens column state closed ∧
        ColumnSettled grammar closed.chart column)
      (Overflow grammar tokens limits column state) := by
  refine ends_closeFrom consistent _ 0 coherent ?_ (by omega)
  intro index item below
  omega

/-- The items of a column that expect a token have moved on into the next column. -/
def Scanned (grammar : Grammar) (chart : Chart) (column : Nat) (token : Token) : Prop :=
  ∀ {place item symbol}, place.column = column → chart.item? place = some item →
    grammar.terminal? token.name = some symbol → item.next? grammar = some symbol →
    chart.HasKey (column + 1) item.nextKey

/-- No item of a column expects a token. -/
def Refuses (grammar : Grammar) (chart : Chart) (column : Nat) (token : Token) : Prop :=
  ∀ {place item symbol}, place.column = column → chart.item? place = some item →
    grammar.terminal? token.name = some symbol → item.next? grammar ≠ some symbol

theorem mem_scanSources {chart : Chart} {symbol : SymbolId} {source : ItemRef} :
    (source ∈ (match chart.column? column with
      | none => []
      | some reached =>
          (reached.indices fun item => item.next? grammar == some symbol).map (ItemRef.mk column))) ↔
      source.column = column ∧
        ∃ item, chart.item? source = some item ∧ item.next? grammar = some symbol := by
  cases reached : chart.column? column with
  | none =>
      simp only [List.not_mem_nil, false_iff]
      intro expecting
      obtain ⟨inColumn, item, present, _⟩ := expecting
      obtain ⟨found, foundAt, _⟩ := Chart.item?_eq_some_iff.mp present
      rw [inColumn, reached] at foundAt
      contradiction
  | some found =>
      have item?_eq := Chart.item?_of_column? reached
      simp only [Column.indices, List.mem_map, mem_indicesBelow, beq_iff_eq]
      constructor
      · intro listed
        obtain ⟨index, ⟨_, item, present, awaited⟩, rfl⟩ := listed
        exact ⟨rfl, item, (item?_eq index).trans present, awaited⟩
      · intro expecting
        obtain ⟨sourceColumn, index⟩ := source
        obtain ⟨rfl, item, present, awaited⟩ := expecting
        rw [item?_eq index] at present
        have inside := (Array.getElem?_eq_some_iff.mp present).1
        exact ⟨index, ⟨inside, item, present, awaited⟩, rfl⟩

/-- Scanning the token after the last column. -/
theorem ends_scan (consistent : grammar.Consistent)
    (coherent : Coherent grammar tokens state.chart) {token : Token}
    (last : state.chart.size = column + 1) (read : tokens[column]? = some token) :
    Ends (scan grammar limits column token) state
      (fun moved next => Progress grammar tokens (column + 1) state next ∧
        if moved then next.chart.size = column + 2 ∧ Scanned grammar next.chart column token
        else next.chart.size = column + 1 ∧ Refuses grammar next.chart column token)
      (Overflow grammar tokens limits (column + 1) state) := by
  unfold scan
  cases spelled : grammar.terminal? token.name with
  | none =>
      refine ⟨⟨coherent, .refl _⟩, last, ?_⟩
      intro place item symbol _ _ found
      rw [spelled] at found
      contradiction
  | some symbol =>
      dsimp only
      rw [ends_bind, ends_getChart, ends_bind]
      let key (source : ItemRef) : ItemKey :=
        ((state.chart.item? source).map Item.nextKey).getD default
      refine Ends.mono (ends_loop key coherent fun source member middle progress => ?_) ?_
        (fun _ _ stops => stops)
      · obtain ⟨inColumn, item, present, awaited⟩ := mem_scanSources.mp member
        obtain ⟨production, found, _⟩ := next?_eq_some_iff.mp awaited
        have keyed : key source = item.nextKey := by simp [key, present]
        rw [keyed]
        have opens : Opens tokens middle.chart (column + 1) (some token) := by
          have inside := (List.getElem?_eq_some_iff.mp read).1
          have sizes := progress.grows.size_le
          exact ⟨by omega, fun _ => ⟨by omega, read.symm⟩⟩
        exact ends_advance consistent progress.coherent (progress.grows.items present) found opens
          (.scanned (progress.grows.items present) (by rw [inColumn]) (by rw [inColumn]; exact read)
            found spelled awaited)
      · intro _ next scanned
        obtain ⟨progress, advanced⟩ := scanned
        rw [ends_bind, ends_getChart, ends_pure]
        refine ⟨progress, ?_⟩
        have sizes := progress.grows.size_le
        have bounded := progress.grows.le_size
        have moves {place item other} (inColumn : place.column = column)
            (present : next.chart.item? place = some item)
            (found : grammar.terminal? token.name = some other)
            (awaited : item.next? grammar = some other) :
            next.chart.HasKey (column + 1) item.nextKey := by
          obtain rfl := Option.some.inj (spelled.symm.trans found)
          rw [progress.grows.elsewhere (by omega)] at present
          have moved := advanced place (mem_scanSources.mpr ⟨inColumn, item, present, awaited⟩)
          simpa [key, present] using moved
        split
        next more =>
          have grown : column + 1 < next.chart.size := by simpa using more
          exact ⟨by omega, moves⟩
        next noMore =>
          have same : ¬ column + 1 < next.chart.size := by simpa using noMore
          refine ⟨by omega, ?_⟩
          intro place item other inColumn present found awaited
          obtain ⟨index, moved, movedPresent, _⟩ := moves inColumn present found awaited
          exact same (Chart.column_lt_size movedPresent)

end Engine

end EarleyChart
