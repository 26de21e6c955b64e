import EarleyChart.Proofs.Completeness
import EarleyChart.Proofs.Traversals

/-!
Contract: a coherent chart can be diagnosed.

Provenances point to earlier places. Counted column by column, a place with an item has fewer places
before it than the chart has items (`Chart.rank`), so that no walk along provenances runs out of
steps. Hence `Diagnosis.build` succeeds in every column of a coherent chart, and its expectations are
the terminals that the column waits for.
-/

namespace EarleyChart

namespace Chart

variable {chart : Chart}

/-- Number of items in the columns before a column. -/
def countBefore (chart : Chart) : (column : Nat) → Nat
  | 0 => 0
  | column + 1 => chart.countBefore column + chart.width column

/-- Number of places before a place, column by column. -/
def rank (chart : Chart) (place : ItemRef) : Nat :=
  chart.countBefore place.column + place.index

theorem countBefore_mono {first second : Nat} (ordered : first ≤ second) :
    chart.countBefore first ≤ chart.countBefore second := by
  induction ordered with
  | refl => exact Nat.le_refl _
  | step _ inductionHypothesis =>
      rw [countBefore]
      omega

/-- The columns of a chart counted from the first on. -/
theorem foldl_take_columns (chart : Chart) {column : Nat} (reached : column ≤ chart.size) :
    (chart.columns.toList.take column).foldl (fun count found => count + found.items.size) 0 =
      chart.countBefore column := by
  induction column with
  | zero => rfl
  | succ column inductionHypothesis =>
      have inside : column < chart.columns.size := reached
      have width : chart.width column = (chart.columns[column]).items.size := by
        simp [Chart.width, Chart.column?, Array.getElem?_eq_getElem inside]
      rw [List.take_succ_eq_append_getElem (by simpa using inside), List.foldl_append,
        inductionHypothesis (by omega), countBefore, width]
      simp

theorem itemCount_eq (chart : Chart) : chart.itemCount = chart.countBefore chart.size := by
  have all : chart.columns.toList.take chart.size = chart.columns.toList :=
    List.take_of_length_le (by simp [Chart.size])
  rw [← foldl_take_columns chart (Nat.le_refl _), all, itemCount, ← Array.foldl_toList]

theorem rank_lt_countBefore {place : ItemRef} {item : Item} {column : Nat}
    (present : chart.item? place = some item) (earlier : place.column < column) :
    chart.rank place < chart.countBefore column := by
  have below := index_lt_width_iff.mpr ⟨item, present⟩
  have ordered : chart.countBefore (place.column + 1) ≤ chart.countBefore column :=
    countBefore_mono earlier
  rw [countBefore] at ordered
  unfold rank
  omega

theorem rank_lt_itemCount {place : ItemRef} {item : Item} (present : chart.item? place = some item) :
    chart.rank place < chart.itemCount := by
  rw [itemCount_eq]
  exact rank_lt_countBefore present (column_lt_size present)

theorem rank_lt_of_before {first second : ItemRef} {item : Item}
    (present : chart.item? first = some item) (before : first.Before second) :
    chart.rank first < chart.rank second := by
  rcases before with earlier | ⟨sameColumn, earlier⟩
  · have counted := rank_lt_countBefore present earlier
    rw [rank.eq_def chart second]
    omega
  · unfold rank
    rw [sameColumn]
    omega

end Chart

/-- The place that an item goes back to. -/
def Provenance.source? : Provenance → Option ItemRef
  | seed => none
  | predicted predictor => some predictor
  | scanned source => some source
  | completed parent _ => some parent

variable {grammar : Grammar} {tokens : List Token} {chart : Chart}

theorem Coherent.source_present (coherent : Coherent grammar tokens chart) {place source : ItemRef}
    {item : Item} (present : chart.item? place = some item)
    (sourceIs : item.provenance.source? = some source) :
    ∃ earlier, chart.item? source = some earlier ∧ chart.rank source < chart.rank place := by
  cases coherent.founded present with
  | seed _ => cases sourceIs
  | predicted earlier _ before _ _ =>
      cases sourceIs
      exact ⟨_, earlier, Chart.rank_lt_of_before earlier before⟩
  | scanned earlier nextColumn _ _ _ _ =>
      cases sourceIs
      exact ⟨_, earlier, Chart.rank_lt_of_before earlier (.inl (by omega))⟩
  | completed earlier _ _ _ before _ _ _ _ _ =>
      cases sourceIs
      exact ⟨_, earlier, Chart.rank_lt_of_before earlier before⟩

/-- The walk back to a dot at the start ends in time. -/
theorem Coherent.exists_startForm (coherent : Coherent grammar tokens chart) {steps : Nat}
    {place : ItemRef} {item : Item} (present : chart.item? place = some item)
    (enough : chart.rank place < steps) :
    ∃ start first, chart.startFormWithin steps place = some start ∧
      chart.item? start = some first ∧ chart.rank start ≤ chart.rank place := by
  induction steps generalizing place item with
  | zero => omega
  | succ steps inductionHypothesis =>
      unfold Chart.startFormWithin
      cases provenance : item.provenance with
      | seed => exact ⟨place, item, by simp [present, provenance], present, Nat.le_refl _⟩
      | predicted predictor =>
          exact ⟨place, item, by simp [present, provenance], present, Nat.le_refl _⟩
      | scanned source =>
          obtain ⟨earlier, earlierPresent, decreases⟩ :=
            coherent.source_present present (by rw [provenance]; rfl)
          obtain ⟨start, first, walked, startPresent, ordered⟩ :=
            inductionHypothesis earlierPresent (by omega)
          exact ⟨start, first, by simpa [present, provenance] using walked, startPresent, by omega⟩
      | completed parent child =>
          obtain ⟨earlier, earlierPresent, decreases⟩ :=
            coherent.source_present present (by rw [provenance]; rfl)
          obtain ⟨start, first, walked, startPresent, ordered⟩ :=
            inductionHypothesis earlierPresent (by omega)
          exact ⟨start, first, by simpa [present, provenance] using walked, startPresent, by omega⟩

theorem Chart.waitingFor_of_unpredicted {origin place start : ItemRef} {first : Item} {steps : Nat}
    (walked : chart.startForm? place = some start) (startPresent : chart.item? start = some first)
    (unpredicted : ¬ ∃ predictor, first.provenance = .predicted predictor) :
    chart.waitingFor origin steps place = .ok [] := by
  unfold Chart.waitingFor
  cases provenance : first.provenance with
  | predicted predictor => exact absurd ⟨predictor, provenance⟩ unpredicted
  | seed => simp [walked, startPresent, provenance]
  | scanned => simp [walked, startPresent, provenance]
  | completed => simp [walked, startPresent, provenance]

/-- A chain ends in time, and its places hold items. -/
theorem Coherent.exists_waitingFor (coherent : Coherent grammar tokens chart) (origin : ItemRef)
    {steps : Nat} {place : ItemRef} {item : Item} (present : chart.item? place = some item)
    (enough : chart.rank place ≤ steps) :
    ∃ chain, chart.waitingFor origin steps place = .ok chain ∧
      ∀ other ∈ chain, ∃ found, chart.item? other = some found := by
  induction steps using Nat.strong_induction_on generalizing place item with
  | _ steps inductionHypothesis =>
      obtain ⟨start, first, walked, startPresent, ordered⟩ := coherent.exists_startForm present
        (Nat.lt_succ_of_lt (Chart.rank_lt_itemCount present))
      by_cases predicted : ∃ predictor, first.provenance = .predicted predictor
      · obtain ⟨predictor, provenance⟩ := predicted
        obtain ⟨waiting, waitingPresent, decreases⟩ :=
          coherent.source_present startPresent (by rw [provenance]; rfl)
        obtain ⟨fewer, rfl⟩ := Nat.exists_eq_add_one_of_ne_zero (show steps ≠ 0 by omega)
        obtain ⟨chain, chained, members⟩ :=
          inductionHypothesis fewer (Nat.lt_succ_self _) waitingPresent (by omega)
        refine ⟨predictor :: chain, ?_, ?_⟩
        · unfold Chart.waitingFor
          simp [Chart.startForm?, walked, startPresent, provenance, chained, Except.map]
        · intro other member
          rcases List.mem_cons.mp member with rfl | inChain
          · exact ⟨waiting, waitingPresent⟩
          · exact members other inChain
      · exact ⟨[], Chart.waitingFor_of_unpredicted walked startPresent predicted, by simp⟩

theorem Coherent.exists_derivationChain (coherent : Coherent grammar tokens chart)
    {place : ItemRef} {item : Item} (present : chart.item? place = some item) :
    ∃ chain, chart.derivationChain place = .ok chain ∧
      ∀ other ∈ chain, ∃ found, chart.item? other = some found := by
  have below := Chart.rank_lt_itemCount present
  obtain ⟨chain, chained, members⟩ := coherent.exists_waitingFor place present
    (Nat.le_sub_one_of_lt below)
  refine ⟨place :: chain, by simp [Chart.derivationChain, chained, Except.map], ?_⟩
  intro other member
  rcases List.mem_cons.mp member with rfl | inChain
  · exact ⟨item, present⟩
  · exact members other inChain

/-- The columns after the first record the tokens that led to them. -/
theorem Coherent.exists_columnToken (coherent : Coherent grammar tokens chart) {column : Nat}
    (later : 0 < column) (inside : column < chart.size) :
    ∃ token, Diagnosis.columnToken chart column = .ok token := by
  obtain ⟨before, rfl⟩ := Nat.exists_eq_add_one_of_ne_zero (Nat.ne_of_gt later)
  have short := coherent.short
  have read : before < tokens.length := by omega
  have recorded : chart.token? (before + 1) = some tokens[before] := by
    rw [coherent.recorded inside]
    exact List.getElem?_eq_getElem read
  exact ⟨tokens[before], by simp [Diagnosis.columnToken, recorded]⟩

section Diagnosing

variable {place : ItemRef} {item : Item}

theorem Coherent.exists_traceStep (consistent : grammar.Consistent)
    (coherent : Coherent grammar tokens chart) (failing : Token)
    (present : chart.item? place = some item) :
    ∃ step, Diagnosis.traceStep grammar chart failing place = .ok step := by
  have inside := Chart.column_lt_size present
  have origin := coherent.origin_le consistent present
  unfold Diagnosis.traceStep
  simp only [present]
  split
  next =>
    unfold Diagnosis.openStep
    split
    next more =>
      obtain ⟨next, token⟩ := coherent.exists_columnToken (Nat.succ_pos _) more
      rw [token]
      exact ⟨_, rfl⟩
    next => exact ⟨_, rfl⟩
  next moved =>
    obtain ⟨first, firstToken⟩ :=
      coherent.exists_columnToken (Nat.succ_pos item.origin) (by omega)
    obtain ⟨last, lastToken⟩ := coherent.exists_columnToken (by omega) inside
    have allTokens : ∃ matched,
        Diagnosis.tokensBetween chart item.origin place.column = .ok matched := by
      apply Traversal.exists_mapM_eq_ok_iff.mpr
      intro column member
      rw [List.mem_range'_1] at member
      exact coherent.exists_columnToken (by omega) (by omega)
    obtain ⟨matched, matchedTokens⟩ := allTokens
    unfold Diagnosis.matchedStep
    rw [firstToken, lastToken, matchedTokens]
    exact ⟨_, rfl⟩

theorem Coherent.exists_trace (consistent : grammar.Consistent)
    (coherent : Coherent grammar tokens chart) (failing : Token) (expected : String)
    (present : chart.item? place = some item) :
    ∃ trace, Diagnosis.trace grammar chart failing place expected = .ok trace := by
  obtain ⟨chain, chained, members⟩ := coherent.exists_derivationChain present
  have stepped : ∃ steps, chain.mapM (Diagnosis.traceStep grammar chart failing) = .ok steps := by
    apply Traversal.exists_mapM_eq_ok_iff.mpr
    intro other member
    obtain ⟨found, otherPresent⟩ := members other member
    exact coherent.exists_traceStep consistent failing otherPresent
  obtain ⟨steps, stepped⟩ := stepped
  unfold Diagnosis.trace
  rw [chained]
  exact ⟨_, by simp [bind, Except.bind, stepped]; rfl⟩

end Diagnosing

/-- A candidate is a place of the column that expects a terminal, with its name. -/
theorem mem_candidates {reached : Column} {index : Nat} {name : String} :
    (index, name) ∈ Diagnosis.candidates grammar reached ↔
      ∃ item symbol, reached.items[index]? = some item ∧ item.next? grammar = some symbol ∧
        grammar.isTerminal symbol = true ∧ grammar.name symbol = name := by
  simp only [Diagnosis.candidates, List.mem_reverse, List.mem_filterMap, Prod.exists,
    List.mem_zipIdx_iff_getElem?, Array.getElem?_toList, Diagnosis.expectation?,
    Option.map_eq_some_iff, Option.filter_eq_some_iff, Prod.mk.injEq]
  constructor
  · intro listed
    obtain ⟨item, place, present, named, ⟨symbol, ⟨awaited, terminal⟩, rfl⟩, rfl, rfl⟩ := listed
    exact ⟨item, symbol, present, awaited, terminal, rfl⟩
  · intro expecting
    obtain ⟨item, symbol, present, awaited, terminal, rfl⟩ := expecting
    exact ⟨item, index, present, _, ⟨symbol, ⟨awaited, terminal⟩, rfl⟩, rfl, rfl⟩

theorem nodup_eraseDups (names : List String) : names.eraseDups.Nodup := by
  induction bound : names.length using Nat.strong_induction_on generalizing names with
  | _ length inductionHypothesis =>
      cases names with
      | nil => exact List.nodup_nil
      | cons first rest =>
          rw [List.eraseDups_cons, List.nodup_cons, List.mem_eraseDups]
          have shorter := List.length_filter_le (fun name => !name == first) rest
          rw [List.length_cons] at bound
          exact ⟨by simp, inductionHypothesis _ (by omega) _ rfl⟩

/-- The terminal that a column waits for, by name. -/
theorem mem_expected_iff (consistent : grammar.Consistent) {column : Nat}
    {reached : Column} (found : chart.column? column = some reached) {name : String} :
    name ∈ ((Diagnosis.candidates grammar reached).map Prod.snd).eraseDups ↔
      ∃ symbol, grammar.terminal? name = some symbol ∧ chart.Awaits grammar column symbol := by
  have item?_eq := Chart.item?_of_column? found
  rw [List.mem_eraseDups, List.mem_map]
  constructor
  · intro listed
    obtain ⟨⟨index, named⟩, member, rfl⟩ := listed
    obtain ⟨item, symbol, present, awaited, terminal, rfl⟩ := mem_candidates.mp member
    exact ⟨symbol, consistent.named awaited terminal, ⟨column, index⟩, item, rfl,
      (item?_eq index).trans present, awaited⟩
  · intro expecting
    obtain ⟨symbol, spelled, ⟨_, index⟩, item, rfl, present, awaited⟩ := expecting
    refine ⟨(index, name), mem_candidates.mpr ⟨item, symbol, ?_, awaited, ?_, ?_⟩, rfl⟩
    · rw [← item?_eq index]
      exact present
    · exact Grammar.isTerminal_of_terminal? spelled
    · exact Grammar.name_of_terminal? spelled

/-- A diagnosis made in a column tells of the token and the column, and expects what the column
waits for. -/
structure Diagnosis.Explains (grammar : Grammar) (chart : Chart) (column : Nat) (token : Token)
    (diagnosis : Diagnosis) : Prop where
  sameToken : diagnosis.token = token
  sameColumn : diagnosis.column = column
  nodup : diagnosis.expected.Nodup
  expected : ∀ {name}, name ∈ diagnosis.expected ↔
    ∃ symbol, grammar.terminal? name = some symbol ∧ chart.Awaits grammar column symbol
  made : ∃ limit, Diagnosis.build grammar chart column token limit = .ok diagnosis

theorem Coherent.exists_diagnosis (consistent : grammar.Consistent)
    (coherent : Coherent grammar tokens chart) {column : Nat} (inside : column < chart.size)
    (token : Token) (limit : Nat) :
    ∃ diagnosis, Diagnosis.build grammar chart column token limit = .ok diagnosis ∧
      diagnosis.Explains grammar chart column token := by
  obtain ⟨reached, found⟩ : ∃ reached, chart.column? column = some reached :=
    ⟨_, Array.getElem?_eq_getElem inside⟩
  let traced := if limit = 0 then Diagnosis.candidates grammar reached
    else (Diagnosis.candidates grammar reached).take limit
  have candidate {entry : Nat × String} (member : entry ∈ traced) :
      entry ∈ Diagnosis.candidates grammar reached := by
    by_cases unlimited : limit = 0
    · simpa only [traced, if_pos unlimited] using member
    · simp only [traced, if_neg unlimited] at member
      exact List.mem_of_mem_take member
  have allTraced : ∃ traces, (traced.mapM fun entry =>
      Diagnosis.trace grammar chart token ⟨column, entry.1⟩ entry.2) = .ok traces := by
    apply Traversal.exists_mapM_eq_ok_iff.mpr
    intro entry member
    obtain ⟨item, _, present, _⟩ := mem_candidates.mp (candidate member)
    have presentHere : chart.item? ⟨column, entry.1⟩ = some item :=
      Chart.item?_eq_some_iff.mpr ⟨reached, found, present⟩
    exact coherent.exists_trace consistent token entry.2 presentHere
  obtain ⟨traces, tracedOk⟩ := allTraced
  let diagnosis : Diagnosis :=
    { token, column, expected := ((Diagnosis.candidates grammar reached).map Prod.snd).eraseDups,
      traces, omitted := (Diagnosis.candidates grammar reached).length - traced.length }
  have made : Diagnosis.build grammar chart column token limit = .ok diagnosis := by
    unfold Diagnosis.build
    simp only [found]
    change (traced.mapM fun entry =>
      Diagnosis.trace grammar chart token ⟨column, entry.1⟩ entry.2) >>= _ = _
    rw [tracedOk]
    rfl
  exact ⟨diagnosis, made, rfl, rfl, nodup_eraseDups _, mem_expected_iff consistent found, limit,
    made⟩

end EarleyChart
