import EarleyChart.Proofs.Correctness
import EarleyChart.Proofs.LeftToRight
import EarleyChart.Proofs.Outline

/-!
Contract: what a parse does depends on the names of its tokens alone.

Two parses are run in parallel, over grammars and tokens that have the same outlines. `Engine.Parallel`
says of two steps that from states with the same outline they end in states with the same outline, both
with related values or both with errors of the same outline. It holds of each operation because the
operation decides by outlines, and it is carried through loops and sequences, so that it holds of
the whole parse. Diagnoses are compared in the same way.
-/

namespace EarleyChart

section Outcomes

variable {α β γ ε : Type}

/-- The outline of a traversal is the traversal of outlines. -/
private theorem map_mapM (step : α → Except ε β) (outline : β → γ) (elements : List α) :
    (elements.mapM step).map (List.map outline) =
      elements.mapM fun element => (step element).map outline := by
  induction elements with
  | nil => rfl
  | cons element rest inductionHypothesis =>
      rw [List.mapM_cons, List.mapM_cons, ← inductionHypothesis]
      cases step element with
      | error fault => rfl
      | ok value => cases rest.mapM step <;> rfl

/-- Two outcomes of the same outline, followed by steps that keep it so. -/
private theorem map_bind_congr {first second : Except ε α} {rest other : α → Except ε β}
    {before : α → γ} {after : β → β} (same : first.map before = second.map before)
    (next : ∀ {value value'}, before value = before value' →
      (rest value).map after = (other value').map after) :
    (first >>= rest).map after = (second >>= other).map after := by
  cases first with
  | error fault =>
      cases second with
      | error fault' =>
          obtain rfl := Except.error.inj same
          rfl
      | ok value' => cases same
  | ok value =>
      cases second with
      | error fault' => cases same
      | ok value' => exact next (Except.ok.inj same)

/-- Two optional values that look alike are both there or both not. -/
private theorem none_or_some_of_map_eq {view : α → γ} {first second : Option α}
    (same : first.map view = second.map view) :
    (first = none ∧ second = none) ∨
      ∃ value value', first = some value ∧ second = some value' ∧ view value = view value' := by
  cases first with
  | none => exact .inl ⟨rfl, Option.map_eq_none_iff.mp same.symm⟩
  | some value =>
      obtain ⟨value', found, views⟩ := Option.map_eq_some_iff.mp same.symm
      exact .inr ⟨value, value', rfl, found, views.symm⟩

private theorem none_or_some_of_isSome_eq {first second : Option α}
    (same : first.isSome = second.isSome) :
    (first = none ∧ second = none) ∨
      ∃ value value', first = some value ∧ second = some value' := by
  cases first <;> cases second <;> simp_all

end Outcomes

namespace Diagnosis

variable {grammar : Grammar} {chart : Chart}

theorem columnToken_outline (column : Nat) :
    columnToken chart.outline column = (columnToken chart column).map Token.outline := by
  simp only [columnToken, Chart.token?_outline]
  cases chart.token? column <;> rfl

theorem tokensBetween_outline (origin column : Nat) :
    tokensBetween chart.outline origin column =
      (tokensBetween chart origin column).map (List.map Token.outline) := by
  unfold tokensBetween
  rw [map_mapM]
  exact congrArg (fun step => List.mapM step _) (funext columnToken_outline)

theorem openStep_outline (place : ItemRef) (item : Item) (failing : Token) :
    (openStep grammar.outline chart.outline place item.outline failing.outline).map
        TraceStep.outline =
      (openStep grammar chart place item failing).map TraceStep.outline := by
  simp only [openStep, Chart.size_outline, Grammar.dotted_outline, columnToken_outline]
  split
  · cases columnToken chart (place.column + 1) <;> rfl
  · rfl

theorem matchedStep_outline (place : ItemRef) (item : Item) :
    (matchedStep grammar.outline chart.outline place item.outline).map TraceStep.outline =
      (matchedStep grammar chart place item).map TraceStep.outline := by
  simp only [matchedStep, Grammar.dotted_outline, columnToken_outline, tokensBetween_outline,
    Item.origin_outline]
  cases columnToken chart (item.origin + 1) with
  | error fault => rfl
  | ok first =>
      cases columnToken chart place.column with
      | error fault => rfl
      | ok last => cases tokensBetween chart item.origin place.column <;> rfl

/-- What a step of a trace tells without its source is decided by outlines. -/
theorem traceStep_outline (failing : Token) (place : ItemRef) :
    (traceStep grammar.outline chart.outline failing.outline place).map TraceStep.outline =
      (traceStep grammar chart failing place).map TraceStep.outline := by
  simp only [traceStep, Chart.item?_outline]
  cases chart.item? place with
  | none => rfl
  | some item =>
      simp only [Option.map_some]
      by_cases unmatched : item.origin = place.column
      · have sameHere : item.outline.origin = place.column := unmatched
        rw [if_pos sameHere, if_pos unmatched]
        exact openStep_outline place item failing
      · have sameHere : ¬ item.outline.origin = place.column := unmatched
        rw [if_neg sameHere, if_neg unmatched]
        exact matchedStep_outline place item

theorem trace_outline (failing : Token) (place : ItemRef) (expected : String) :
    (trace grammar.outline chart.outline failing.outline place expected).map Trace.outline =
      (trace grammar chart failing place expected).map Trace.outline := by
  simp only [trace, Chart.derivationChain_outline]
  have sameChain : (chart.derivationChain place).map id = (chart.derivationChain place).map id := rfl
  refine map_bind_congr sameChain ?_
  intro chain chain' equal
  obtain rfl : chain = chain' := equal
  have steps : (chain.mapM (traceStep grammar.outline chart.outline failing.outline)).map
        (List.map TraceStep.outline) =
      (chain.mapM (traceStep grammar chart failing)).map (List.map TraceStep.outline) := by
    rw [map_mapM, map_mapM]
    exact congrArg (fun step => List.mapM step _) (funext (traceStep_outline failing))
  refine map_bind_congr steps ?_
  intro first second same
  simp only [pure, Except.pure, Except.map, Trace.outline, same]

theorem expectation?_outline (item : Item) :
    expectation? grammar.outline item.outline = expectation? grammar item := by
  simp only [expectation?, Item.next?, Grammar.symbolAt?_outline]
  rfl

theorem candidates_outline (column : Column) :
    candidates grammar.outline column.outline = candidates grammar column := by
  simp only [candidates, Column.outline, Array.toList_map, List.zipIdx_map, List.filterMap_map]
  congr 1
  apply List.filterMap_congr
  intro entry _
  obtain ⟨item, index⟩ := entry
  simp only [Function.comp_apply, Prod.map_apply, expectation?_outline, id_eq]

/-- What a diagnosis tells without texts is decided by outlines. -/
theorem build_outline (column : Nat) (token : Token) (limit : Nat) :
    (build grammar.outline chart.outline column token.outline limit).map outline =
      (build grammar chart column token limit).map outline := by
  simp only [build, Chart.column?_outline]
  cases chart.column? column with
  | none => rfl
  | some reached =>
      simp only [Option.map_some, candidates_outline]
      generalize candidates grammar reached = found
      have traces (traced : List (Nat × String)) :
          (traced.mapM fun candidate => trace grammar.outline chart.outline token.outline
              ⟨column, candidate.1⟩ candidate.2).map (List.map Trace.outline) =
            (traced.mapM fun candidate => trace grammar chart token
              ⟨column, candidate.1⟩ candidate.2).map (List.map Trace.outline) := by
        rw [map_mapM, map_mapM]
        exact congrArg (fun step => List.mapM step _) (funext fun candidate =>
          trace_outline token _ _)
      refine map_bind_congr (traces _) ?_
      intro first second same
      simp only [pure, Except.pure, Except.map, outline, same, Token.outline_outline]

end Diagnosis

namespace Engine

section Decisions

variable (grammar : Grammar) (chart : Chart)

theorem emptyDerivations_outline (symbol : SymbolId) (before : ItemRef) :
    (emptyDerivations grammar.outline chart.outline symbol before).map Prod.fst =
      (emptyDerivations grammar chart symbol before).map Prod.fst := by
  have unchanged : isEmptyDerivation grammar.outline symbol before.column =
      isEmptyDerivation grammar symbol before.column := by
    funext item
    simp only [isEmptyDerivation, Grammar.production?_outline, Option.map_map]
    rfl
  have decided (item : Item) : isEmptyDerivation grammar symbol before.column item.outline =
      isEmptyDerivation grammar symbol before.column item := by
    simp only [isEmptyDerivation, Item.isComplete_outline]
    rfl
  simp only [emptyDerivations, Chart.column?_outline, unchanged]
  cases chart.column? before.column with
  | none => rfl
  | some column =>
      simp only [Option.map_some, column.indicesBelow_outline before.index decided,
        List.map_filterMap]
      apply List.filterMap_congr
      intro index _
      simp only [Column.outline, Array.getElem?_map]
      cases column.items[index]? with
      | none => rfl
      | some item =>
          obtain ⟨_, _, _, payload, _⟩ := item
          cases payload <;> rfl

/-- The items that wait for a symbol are found by outlines. -/
theorem indicesBelow_next?_outline (column : Column) (limit : Nat) (symbol : SymbolId) :
    (column.outline.indicesBelow limit fun item => item.next? grammar.outline == some symbol) =
      column.indicesBelow limit fun item => item.next? grammar == some symbol := by
  have unchanged (item : Item) : item.next? grammar.outline = item.next? grammar :=
    grammar.symbolAt?_outline _ _
  simp only [unchanged]
  apply column.indicesBelow_outline
  intro item
  rw [item.next?_outline]

theorem waiting_outline (symbol : SymbolId) (child : ItemRef) (origin : Nat) (column : Column) :
    waiting grammar.outline symbol child origin column.outline =
      waiting grammar symbol child origin column := by
  simp only [waiting, Column.size_items_outline, indicesBelow_next?_outline]

theorem acceptKey_outline : acceptKey grammar.outline = acceptKey grammar := by
  have start : grammar.outline.startProduction = grammar.startProduction := rfl
  simp only [acceptKey, start, Grammar.production?_outline, Option.map_map]
  rfl

theorem isSome_accepted?_outline :
    (accepted? grammar.outline chart.outline).isSome = (accepted? grammar chart).isSome := by
  simp only [accepted?, acceptKey_outline, Chart.size_outline, Chart.find?_outline]
  cases chart.find? (chart.size - 1) (acceptKey grammar) with
  | none => rfl
  | some place =>
      simp only [Option.bind_some, Chart.item?_outline]
      cases chart.item? place with
      | none => rfl
      | some item => exact item.isComplete_outline

theorem outline_payloadAt {production production' : Production}
    (same : production.outline = production'.outline) (dot : Nat)
    (children children' : List Value) :
    (payloadAt production dot children).outline = (payloadAt production' dot children').outline := by
  have rhs : production.rhs = production'.rhs := (congrArg Production.rhs same :)
  unfold payloadAt
  rw [rhs]
  split <;> rfl

end Decisions

section Steps

variable {α β α' β' : Type}

/-- Outcomes that differ in values and texts alone. -/
inductive Alike (related : α → α' → Prop) :
    EStateM.Result ParseError ParseState α → EStateM.Result ParseError ParseState α' → Prop
  | ok {value : α} {value' : α'} {state state' : ParseState} (values : related value value')
      (states : state.outline = state'.outline) : Alike related (.ok value state) (.ok value' state')
  | error {error error' : ParseError} {state state' : ParseState}
      (errors : error.outline = error'.outline) (states : state.outline = state'.outline) :
      Alike related (.error error state) (.error error' state')

/-- Steps that states of the same outline lead to outcomes of the same outline. -/
def Parallel (related : α → α' → Prop) (first : Engine α) (second : Engine α') : Prop :=
  ∀ state state' : ParseState, state.outline = state'.outline →
    Alike related (first state) (second state')

variable {related : α → α' → Prop} {relatedNext : β → β' → Prop}

theorem parallel_pure {value : α} {value' : α'} (values : related value value') :
    Parallel related (pure value) (pure value') :=
  fun _ _ states => .ok values states

theorem parallel_throw {error error' : ParseError} (errors : error.outline = error'.outline) :
    Parallel related (throw error) (throw error') :=
  fun _ _ states => .error errors states

theorem parallel_fail (fault : ChartFault) : Parallel related (fail fault) (fail fault) :=
  parallel_throw rfl

theorem Parallel.bind {first : Engine α} {second : Engine α'} {rest : α → Engine β}
    {rest' : α' → Engine β'} (steps : Parallel related first second)
    (rests : ∀ {value value'}, related value value' →
      Parallel relatedNext (rest value) (rest' value')) :
    Parallel relatedNext (first >>= rest) (second >>= rest') := by
  intro state state' states
  show Alike relatedNext (EStateM.bind first rest state) (EStateM.bind second rest' state')
  unfold EStateM.bind
  have outcomes := steps state state' states
  generalize first state = outcome at outcomes
  generalize second state' = outcome' at outcomes
  cases outcomes with
  | ok values nextStates => exact rests values _ _ nextStates
  | error errors nextStates => exact .error errors nextStates

theorem parallel_countAmbiguity : Parallel Eq countAmbiguity countAmbiguity := by
  intro state state' states
  have charts : state.chart.outline = state'.chart.outline := congrArg ParseState.chart states
  have ambiguities : state.ambiguities = state'.ambiguities :=
    (congrArg ParseState.ambiguities states :)
  exact .ok rfl (by simp only [ParseState.outline, charts, ambiguities])

theorem parallel_getChart :
    Parallel (fun chart chart' : Chart => chart.outline = chart'.outline) getChart getChart :=
  fun _ _ states => .ok (congrArg ParseState.chart states) states

theorem parallel_ite {condition condition' : Prop} [Decidable condition] [Decidable condition']
    (conditions : condition ↔ condition') {first second : Engine α} {first' second' : Engine α'}
    (yes : Parallel related first first') (no : Parallel related second second') :
    Parallel related (if condition then first else second)
      (if condition' then first' else second') := by
  by_cases holds : condition
  · rw [if_pos holds, if_pos (conditions.mp holds)]
    exact yes
  · rw [if_neg holds, if_neg (holds ∘ conditions.mpr)]
    exact no

/-- Loops over elements that agree in what `view` shows of them. -/
theorem parallel_forM {γ : Type} (view : α → γ) {elements elements' : List α}
    {step step' : α → Engine Unit} (same : elements.map view = elements'.map view)
    (steps : ∀ {element element'}, view element = view element' →
      Parallel Eq (step element) (step' element')) :
    Parallel Eq (elements.forM step) (elements'.forM step') := by
  induction elements generalizing elements' with
  | nil =>
      obtain rfl : elements' = [] := List.map_eq_nil_iff.mp same.symm
      exact parallel_pure rfl
  | cons element rest inductionHypothesis =>
      cases elements' with
      | nil => cases same
      | cons element' rest' =>
          obtain ⟨first, others⟩ := List.cons.inj same
          exact (steps first).bind fun _ => inductionHypothesis others

end Steps

section Operations

variable {grammar other : Grammar} {limits : Limits} (same : grammar.outline = other.outline)
include same

theorem parallel_getProduction (id : ProductionId) :
    Parallel (fun production production' => production.outline = production'.outline)
      (getProduction grammar id) (getProduction other id) := by
  unfold getProduction
  obtain ⟨first, second⟩ | ⟨production, production', first, second, outlines⟩ :=
    none_or_some_of_map_eq (Grammar.production?_congr same id)
  · rw [first, second]
    exact parallel_fail _
  · rw [first, second]
    exact parallel_pure outlines

omit same in
theorem parallel_place (column : Nat) {item item' : Item} {token token' : Option Token}
    (items : item.outline = item'.outline)
    (tokens : token.map Token.outline = token'.map Token.outline) :
    Parallel Eq (place column item token) (place column item' token') := by
  intro state state' states
  obtain ⟨chart, ambiguities⟩ := state
  obtain ⟨chart', ambiguities'⟩ := state'
  have charts : chart.outline = chart'.outline := congrArg ParseState.chart states
  obtain rfl : ambiguities = ambiguities' := congrArg ParseState.ambiguities states
  have inserted : ((chart.insert column item token).1.outline, (chart.insert column item token).2) =
      ((chart'.insert column item' token').1.outline, (chart'.insert column item' token').2) := by
    rw [← chart.insert_outline, ← chart'.insert_outline, charts, items, tokens]
  simp only [place]
  generalize chart.insert column item token = result at inserted
  generalize chart'.insert column item' token' = result' at inserted
  obtain ⟨next, outcome⟩ := result
  obtain ⟨next', outcome'⟩ := result'
  obtain ⟨nexts, rfl⟩ : next.outline = next'.outline ∧ outcome = outcome' := Prod.mk.inj inserted
  have nextStates : (ParseState.mk next ambiguities).outline =
      (ParseState.mk next' ambiguities).outline := by
    simp only [ParseState.outline, nexts]
  cases outcome with
  | error fault => exact .error rfl nextStates
  | ok insertion => exact .ok rfl nextStates

omit same in
theorem parallel_insert (column : Nat) {item item' : Item} {token token' : Option Token}
    (items : item.outline = item'.outline)
    (tokens : token.map Token.outline = token'.map Token.outline) :
    Parallel Eq (insert limits column item token) (insert limits column item' token') := by
  unfold insert
  refine (parallel_place column items tokens).bind ?_
  rintro insertion _ rfl
  cases insertion with
  | duplicate place => exact parallel_pure rfl
  | added place =>
      dsimp only
      split
      · exact parallel_throw rfl
      · exact parallel_pure rfl

theorem parallel_advance (column : Nat) (source : ItemRef) (value value' : Value)
    (provenance : Provenance) {token token' : Option Token}
    (tokens : token.map Token.outline = token'.map Token.outline) :
    Parallel Eq (advance grammar limits column source value provenance token)
      (advance other limits column source value' provenance token') := by
  unfold advance
  refine parallel_getChart.bind ?_
  intro chart chart' charts
  obtain ⟨first, second⟩ | ⟨item, item', first, second, items⟩ :=
    none_or_some_of_map_eq (Chart.item?_congr charts source)
  · rw [first, second]
    exact parallel_fail _
  · rw [first, second]
    obtain ⟨id, dot, origin, payload, _⟩ := item
    obtain ⟨_, _, _, payload', _⟩ := item'
    obtain ⟨rfl, rfl, rfl, -, -⟩ := Item.mk.inj items
    refine parallel_getChart.bind ?_
    intro chart chart' charts
    refine parallel_ite (by rw [Chart.find?_congr charts]; rfl) parallel_countAmbiguity ?_
    refine (parallel_getProduction same _).bind ?_
    intro production production' productions
    refine parallel_insert column ?_ tokens
    exact congrArg (Item.mk _ _ _ · provenance) (outline_payloadAt productions _ _ _)

theorem parallel_predictProduction (predictor : ItemRef) (id : ProductionId) :
    Parallel Eq (predictProduction grammar limits predictor id)
      (predictProduction other limits predictor id) := by
  unfold predictProduction
  refine parallel_getChart.bind ?_
  intro chart chart' charts
  refine parallel_ite (by rw [Chart.find?_congr charts]) ?_ (parallel_pure rfl)
  refine (parallel_getProduction same id).bind ?_
  intro production production' productions
  refine parallel_insert _ ?_ rfl
  exact congrArg (Item.mk id 0 predictor.column · (.predicted predictor))
    (outline_payloadAt productions 0 [] [])

theorem parallel_predict (predictor : ItemRef) (symbol : SymbolId) :
    Parallel Eq (predict grammar limits predictor symbol)
      (predict other limits predictor symbol) := by
  have productions : grammar.productionsFor = other.productionsFor :=
    (congrArg Grammar.productionsFor same :)
  have nullable : grammar.isNullable = other.isNullable := (congrArg Grammar.isNullable same :)
  unfold predict
  rw [productions, nullable]
  refine (parallel_forM id rfl fun {id id'} ids => ?_).bind fun _ => ?_
  · obtain rfl : id = id' := ids
    exact parallel_predictProduction same predictor id
  · split
    · refine parallel_getChart.bind ?_
      intro chart chart' charts
      have derivations : (emptyDerivations grammar chart symbol predictor).map Prod.fst =
          (emptyDerivations other chart' symbol predictor).map Prod.fst := by
        rw [← emptyDerivations_outline, same, charts, emptyDerivations_outline]
      refine parallel_forM Prod.fst derivations ?_
      rintro ⟨child, value⟩ ⟨_, value'⟩ rfl
      exact parallel_advance same _ _ value value' _ rfl
    · exact parallel_pure rfl

theorem parallel_complete (child : ItemRef) (symbol : SymbolId) (origin : Nat)
    (value value' : Value) :
    Parallel Eq (complete grammar limits child symbol origin value)
      (complete other limits child symbol origin value') := by
  unfold complete
  refine parallel_getChart.bind ?_
  intro chart chart' charts
  obtain ⟨first, second⟩ | ⟨column, column', first, second, columns⟩ :=
    none_or_some_of_map_eq (Chart.column?_congr charts origin)
  · rw [first, second]
    exact parallel_fail _
  · rw [first, second]
    have parents : waiting grammar symbol child origin column =
        waiting other symbol child origin column' := by
      rw [← waiting_outline, same, columns, waiting_outline]
    simp only [parents]
    refine parallel_forM id rfl ?_
    rintro parent _ rfl
    exact parallel_advance same _ _ value value' _ rfl

theorem parallel_process (place : ItemRef) {item item' : Item}
    (items : item.outline = item'.outline) :
    Parallel Eq (process grammar limits place item) (process other limits place item') := by
  have complete : item.value?.isSome = item'.value?.isSome := by
    rw [Item.isSome_value?, Item.isSome_value?, ← item.isComplete_outline, items,
      item'.isComplete_outline]
  have next : item.next? grammar = item'.next? other := by
    rw [← item.next?_outline, items, item'.next?_outline]
    exact (grammar.symbolAt?_outline _ _).symm.trans
      (same ▸ other.symbolAt?_outline item'.production item'.dot)
  have terminal : grammar.isTerminal = other.isTerminal := (congrArg Grammar.isTerminal same :)
  have production : item.production = item'.production := (congrArg Item.production items :)
  have origin : item.origin = item'.origin := (congrArg Item.origin items :)
  unfold process
  rw [next, terminal, production, origin]
  cases item'.next? other with
  | some symbol =>
      dsimp only
      split
      · exact parallel_predict same place symbol
      · exact parallel_pure rfl
  | none =>
      refine (parallel_getProduction same _).bind ?_
      intro production production' productions
      have symbol : production.lhs = production'.lhs := (congrArg Production.lhs productions :)
      rw [symbol]
      obtain ⟨first, second⟩ | ⟨value, value', first, second⟩ := none_or_some_of_isSome_eq complete
      · rw [first, second]
        exact parallel_fail _
      · rw [first, second]
        exact parallel_complete same place _ _ value value'

theorem parallel_closeFrom (column bound next : Nat) :
    Parallel Eq (closeFrom grammar limits column bound next)
      (closeFrom other limits column bound next) := by
  induction bound generalizing next with
  | zero => exact parallel_pure rfl
  | succ bound inductionHypothesis =>
      unfold closeFrom
      refine parallel_getChart.bind ?_
      intro chart chart' charts
      obtain ⟨first, second⟩ | ⟨item, item', first, second, items⟩ :=
        none_or_some_of_map_eq (Chart.item?_congr charts ⟨column, next⟩)
      · rw [first, second]
        exact parallel_pure rfl
      · rw [first, second]
        exact (parallel_process same _ items).bind fun _ => inductionHypothesis (next + 1)

theorem parallel_closeColumn (column : Nat) :
    Parallel Eq (closeColumn grammar limits column) (closeColumn other limits column) := by
  have budget : itemBudget grammar column = itemBudget other column := by
    rw [itemBudget, ← grammar.dotCount_outline, same, other.dotCount_outline, itemBudget]
  unfold closeColumn
  rw [budget]
  exact parallel_closeFrom same column _ 0

/-- The items that a token moves. -/
theorem scanned_congr {chart chart' : Chart} (charts : chart.outline = chart'.outline)
    (column : Nat) (terminal : SymbolId) :
    (match chart.column? column with
      | none => []
      | some reached =>
          (reached.indices fun item => item.next? grammar == some terminal).map
            (ItemRef.mk column)) =
      match chart'.column? column with
      | none => []
      | some reached =>
          (reached.indices fun item => item.next? other == some terminal).map
            (ItemRef.mk column) := by
  obtain ⟨first, second⟩ | ⟨reached, reached', first, second, columns⟩ :=
    none_or_some_of_map_eq (Chart.column?_congr charts column)
  · rw [first, second]
  · rw [first, second]
    simp only [Column.indices]
    rw [← reached.size_items_outline, ← indicesBelow_next?_outline, same, columns,
      indicesBelow_next?_outline, reached'.size_items_outline]

theorem parallel_scan (column : Nat) {token token' : Token} (names : token.name = token'.name) :
    Parallel Eq (scan grammar limits column token) (scan other limits column token') := by
  have terminal : grammar.terminal? = other.terminal? := (congrArg Grammar.terminal? same :)
  unfold scan
  rw [terminal, names]
  cases other.terminal? token'.name with
  | none => exact parallel_pure rfl
  | some terminal =>
      refine parallel_getChart.bind ?_
      intro chart chart' charts
      refine Parallel.bind (parallel_forM id (congrArg (List.map id) (scanned_congr same charts column terminal)) ?_) fun _ =>
        parallel_getChart.bind ?_
      · rintro source _ rfl
        exact parallel_advance same _ _ _ _ _ (congrArg some (Token.outline_eq_iff.mpr names))
      · intro chart chart' charts
        rw [Chart.size_congr charts]
        exact parallel_pure rfl

theorem parallel_diagnose {token token' : Token} (names : token.name = token'.name) :
    Parallel (fun diagnosis diagnosis' => diagnosis.outline = diagnosis'.outline)
      (diagnose grammar limits token) (diagnose other limits token') := by
  unfold diagnose
  refine parallel_getChart.bind ?_
  intro chart chart' charts
  have built : (Diagnosis.build grammar chart (chart.size - 1) token limits.maxTraces).map
        Diagnosis.outline =
      (Diagnosis.build other chart' (chart'.size - 1) token' limits.maxTraces).map
        Diagnosis.outline := by
    rw [← Diagnosis.build_outline, Chart.size_congr charts, charts, same,
      Token.outline_eq_iff.mpr names, Diagnosis.build_outline]
  generalize Diagnosis.build grammar chart (chart.size - 1) token limits.maxTraces = outcome
    at built ⊢
  generalize Diagnosis.build other chart' (chart'.size - 1) token' limits.maxTraces = outcome'
    at built ⊢
  cases outcome with
  | error fault =>
      cases outcome' with
      | error fault' =>
          obtain rfl := Except.error.inj built
          exact parallel_fail _
      | ok diagnosis' => cases built
  | ok diagnosis =>
      cases outcome' with
      | error fault' => cases built
      | ok diagnosis' => exact parallel_pure (Except.ok.inj built)

theorem parallel_consume (consumed : Nat) {token token' : Token}
    (names : token.name = token'.name) :
    Parallel Eq (consume grammar limits consumed token) (consume other limits consumed token') := by
  unfold consume
  refine parallel_ite Iff.rfl (parallel_throw rfl) (parallel_getChart.bind ?_)
  intro chart chart' charts
  rw [Chart.size_congr charts]
  refine (parallel_scan same _ names).bind ?_
  rintro moved _ rfl
  refine parallel_ite Iff.rfl (parallel_closeColumn same _) ((parallel_diagnose same names).bind ?_)
  intro diagnosis diagnosis' diagnoses
  exact parallel_throw (congrArg ParseError.unexpectedToken diagnoses)

theorem parallel_consumeAll (consumed : Nat) {tokens others : List Token}
    (names : tokens.map Token.name = others.map Token.name) :
    Parallel Eq (consumeAll grammar limits consumed tokens)
      (consumeAll other limits consumed others) := by
  induction tokens generalizing consumed others with
  | nil =>
      obtain rfl : others = [] := List.map_eq_nil_iff.mp names.symm
      exact parallel_pure rfl
  | cons token rest inductionHypothesis =>
      cases others with
      | nil => cases names
      | cons token' rest' =>
          obtain ⟨first, later⟩ := List.cons.inj names
          exact (parallel_consume same consumed first).bind fun _ =>
            inductionHypothesis (consumed + 1) later

theorem parallel_finish :
    Parallel (fun _ _ => True) (finish grammar limits) (finish other limits) := by
  unfold finish
  refine parallel_getChart.bind ?_
  intro chart chart' charts
  have accepted : (accepted? grammar chart).isSome = (accepted? other chart').isSome := by
    rw [← isSome_accepted?_outline, same, charts, isSome_accepted?_outline]
  obtain ⟨first, second⟩ | ⟨value, value', first, second⟩ := none_or_some_of_isSome_eq accepted
  · rw [first, second]
    have sentinels : (Token.endOfInput (chart.token? (chart.size - 1))).name =
        (Token.endOfInput (chart'.token? (chart'.size - 1))).name := rfl
    refine (parallel_diagnose same sentinels).bind ?_
    intro diagnosis diagnosis' diagnoses
    exact parallel_throw (congrArg ParseError.unexpectedEnd diagnoses)
  · rw [first, second]
    exact parallel_pure trivial

theorem parallel_parseAll {tokens others : List Token}
    (names : tokens.map Token.name = others.map Token.name) :
    Parallel (fun _ _ => True) (parseAll grammar limits tokens) (parseAll other limits others) :=
  (parallel_closeColumn same 0).bind fun _ =>
    (parallel_consumeAll same 0 names).bind fun _ => parallel_finish same

end Operations

end Engine

theorem Grammar.outline_seed {grammar other : Grammar} (same : grammar.outline = other.outline) :
    grammar.seed.outline = other.seed.outline := by
  have start : grammar.startProduction = other.startProduction :=
    (congrArg Grammar.startProduction same :)
  unfold seed
  rw [start]
  obtain ⟨first, second⟩ | ⟨production, production', first, second, outlines⟩ :=
    none_or_some_of_map_eq (production?_congr same other.startProduction)
  · rw [first, second]
  · rw [first, second]
    exact congrArg (Item.mk other.startProduction 0 0 · .seed)
      (Engine.outline_payloadAt outlines 0 [] [])

theorem Chart.seeded_outline (item : Item) :
    (Chart.seeded item).outline = Chart.seeded item.outline := by
  simp [seeded, outline, Column.push_outline, Column.empty_outline]

/-- The counts of a parse are read off its outline. -/
theorem ParseState.stats_congr {state state' : ParseState} (same : state.outline = state'.outline) :
    ParseStats.mk state.chart.size state.chart.itemCount state.ambiguities =
      ParseStats.mk state'.chart.size state'.chart.itemCount state'.ambiguities := by
  have charts : state.chart.outline = state'.chart.outline := (congrArg ParseState.chart same :)
  have ambiguities : state.ambiguities = state'.ambiguities :=
    (congrArg ParseState.ambiguities same :)
  rw [Chart.size_congr charts, ← state.chart.itemCount_outline, charts, ambiguities,
    Chart.itemCount_outline]

/-- Grammars that differ in their reductions alone, run on tokens of the same names, end with charts
and errors that differ in values, texts and places of the source alone, and with the same counts. -/
theorem Grammar.run_depends_on_names_alone {grammar other : Grammar} (limits : Limits)
    (same : grammar.outline = other.outline) {tokens others : List Token}
    (names : tokens.map Token.name = others.map Token.name) :
    (grammar.run limits tokens).chart.outline = (other.run limits others).chart.outline ∧
      (grammar.run limits tokens).stats = (other.run limits others).stats ∧
      ((grammar.run limits tokens).result.map fun _ => ()).mapError ParseError.outline =
        ((other.run limits others).result.map fun _ => ()).mapError ParseError.outline := by
  have seeds : (ParseState.mk (Chart.seeded grammar.seed) 0).outline =
      (ParseState.mk (Chart.seeded other.seed) 0).outline := by
    simp only [ParseState.outline, Chart.seeded_outline, Grammar.outline_seed same]
  have parallel : Engine.Parallel (fun _ _ => True) (Engine.parseAll grammar limits tokens)
      (Engine.parseAll other limits others) :=
    Engine.parallel_parseAll same names
  have alike := parallel _ _ seeds
  rw [Grammar.run_eq_ofOutcome, Grammar.run_eq_ofOutcome]
  generalize Engine.parseAll grammar limits tokens ⟨Chart.seeded grammar.seed, 0⟩ = outcome at alike
  generalize Engine.parseAll other limits others ⟨Chart.seeded other.seed, 0⟩ = outcome' at alike
  cases alike with
  | ok _ states => exact ⟨congrArg ParseState.chart states, ParseState.stats_congr states, rfl⟩
  | error errors states =>
      exact ⟨congrArg ParseState.chart states, ParseState.stats_congr states,
        congrArg Except.error errors⟩

namespace Declaration

/-- Sums that all have the same value. -/
def constantSums : Declaration :=
  { sums with rules := sums.rules.map fun rule =>
      { rule with reducer := some (.builtin (.constant (.int 0))) } }

/-- The tokens of `23 + 4 5` with a line break after each of them. -/
def brokenSumOnLines : List Token :=
  [⟨"number", "23", 1, 1, 0⟩, ⟨"plus", "+", 2, 1, 3⟩, ⟨"number", "4", 3, 1, 5⟩,
    ⟨"number", "5", 4, 1, 7⟩]

theorem outline_constantSums :
    (sums.grammar "sum").outline = (constantSums.grammar "sum").outline := by
  have productions : (sums.grammar "sum").outline.productions =
      (constantSums.grammar "sum").outline.productions := by
    simp only [Grammar.outline]
    rw [← Array.toList_inj, Array.toList_map, Array.toList_map]
    rfl
  exact congrArg (Grammar.mk (sums.grammar "sum").symbols · _ _) productions

theorem brokenSum_run_alike :
    brokenSum ≠ brokenSumOnLines ∧
      ((sums.grammar "sum").run {} brokenSum).chart.outline =
        ((constantSums.grammar "sum").run {} brokenSumOnLines).chart.outline ∧
      ((sums.grammar "sum").run {} brokenSum).stats =
        ((constantSums.grammar "sum").run {} brokenSumOnLines).stats := by
  have alike := Grammar.run_depends_on_names_alone {} outline_constantSums
    (show brokenSum.map Token.name = brokenSumOnLines.map Token.name by decide)
  exact ⟨by decide, alike.1, alike.2.1⟩

end Declaration

end EarleyChart
