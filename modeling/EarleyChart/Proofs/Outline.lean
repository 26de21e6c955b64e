import EarleyChart.Parse.Run

/-!
Contract: what is left of a parse when values and texts are taken out.

The outline of a token is its name, the outline of an item tells whether it is complete but not
what it holds, and the outline of a diagnosis has no spans and no matched texts. Everything that
directs a parse can be read off outlines: looking up an item, a key or a column of the outline of a
chart gives the outline of what is found there, insertion into it gives the outline of the chart after
the insertion (`Chart.insert_outline`), and its derivation chains are those of the chart.
-/

namespace EarleyChart

/-- A token of the same name and nothing else. -/
def Token.outline (token : Token) : Token where
  kind := token.name
  text := token.name
  line := 0
  column := 0
  offset := 0

@[simp] theorem Token.name_outline (token : Token) : token.outline.name = token.name := by
  unfold outline
  rw [name.eq_def]
  exact ite_self _

theorem Token.outline_eq_iff {first second : Token} :
    first.outline = second.outline ↔ first.name = second.name := by
  constructor
  · intro same
    rw [← first.name_outline, same, second.name_outline]
  · intro same
    rw [outline, outline, same]

@[simp] theorem Token.outline_outline (token : Token) : token.outline.outline = token.outline :=
  outline_eq_iff.mpr token.name_outline

/-- Whether something is matched up to its end, without the values. -/
def Payload.outline : Payload → Payload
  | .matched _ => .matched []
  | .reduced _ => .reduced .nil

/-- An item without its values. -/
def Item.outline (item : Item) : Item :=
  { item with payload := item.payload.outline }

/-- A column without values and texts. -/
def Column.outline (column : Column) : Column :=
  { column with
    token := column.token.map Token.outline
    items := column.items.map Item.outline }

/-- A chart without values and texts. -/
def Chart.outline (chart : Chart) : Chart :=
  ⟨chart.columns.map Column.outline⟩

/-- A parse without values and texts. -/
def ParseState.outline (state : ParseState) : ParseState :=
  { state with chart := state.chart.outline }

/-- A step of a trace without its source. -/
def TraceStep.outline (step : TraceStep) : TraceStep :=
  { step with span := Span.point Position.start, matched := "" }

def Trace.outline (trace : Trace) : Trace :=
  { trace with steps := trace.steps.map TraceStep.outline }

/-- A diagnosis without texts and places of the source. -/
def Diagnosis.outline (diagnosis : Diagnosis) : Diagnosis :=
  { diagnosis with
    token := diagnosis.token.outline
    traces := diagnosis.traces.map Trace.outline }

/-- An error of a parse without texts and places of the source. -/
def ParseError.outline : ParseError → ParseError
  | unexpected diagnosis token expected => .unexpected diagnosis.outline token.outline expected
  | ended diagnosis token expected => .ended diagnosis.outline token.outline expected
  | error => error

/-- A production without its reduction. -/
def Production.outline (production : Production) : Production :=
  { production with reducer := none }

/-- A grammar without its reductions. -/
def Grammar.outline (grammar : Grammar) : Grammar :=
  { grammar with productions := grammar.productions.map Production.outline }

section Items

variable (item : Item)

@[simp] theorem Item.key_outline : item.outline.key = item.key :=
  rfl

@[simp] theorem Item.provenance_outline : item.outline.provenance = item.provenance :=
  rfl

@[simp] theorem Item.origin_outline : item.outline.origin = item.origin :=
  rfl

@[simp] theorem Item.isComplete_outline : item.outline.isComplete = item.isComplete := by
  obtain ⟨_, _, _, payload, _⟩ := item
  cases payload <;> rfl

@[simp] theorem Item.next?_outline (grammar : Grammar) :
    item.outline.next? grammar = item.next? grammar :=
  rfl

theorem Item.isSome_value? : item.value?.isSome = item.isComplete :=
  rfl

end Items

section Columns

variable (column : Column)

@[simp] theorem Column.size_items_outline : column.outline.items.size = column.items.size := by
  simp [outline]

@[simp] theorem Column.find?_outline (key : ItemKey) : column.outline.find? key = column.find? key :=
  rfl

theorem Column.push_outline (item : Item) :
    (column.push item).outline = column.outline.push item.outline := by
  simp [push, outline]

theorem Column.empty_outline (index : Nat) (token : Option Token) :
    (Column.empty index token).outline = Column.empty index (token.map Token.outline) := by
  simp [empty, outline]

/-- A property that outlines decide holds at the same places of an outline. -/
theorem Column.indicesBelow_outline (limit : Nat) {property : Item → Bool}
    (decided : ∀ item : Item, property item.outline = property item) :
    column.outline.indicesBelow limit property = column.indicesBelow limit property := by
  unfold indicesBelow
  rw [size_items_outline]
  apply List.filter_congr
  intro index _
  simp only [outline, Array.getElem?_map]
  cases column.items[index]? with
  | none => rfl
  | some item => exact decided item

end Columns

namespace Chart

variable (chart : Chart)

@[simp] theorem size_outline : chart.outline.size = chart.size := by
  simp [size, outline]

@[simp] theorem column?_outline (column : Nat) :
    chart.outline.column? column = (chart.column? column).map Column.outline := by
  simp [column?, outline]

@[simp] theorem item?_outline (place : ItemRef) :
    chart.outline.item? place = (chart.item? place).map Item.outline := by
  simp only [item?, outline, Array.getElem?_map]
  cases chart.columns[place.column]? with
  | none => rfl
  | some column => simp [Column.outline]

@[simp] theorem token?_outline (column : Nat) :
    chart.outline.token? column = (chart.token? column).map Token.outline := by
  simp only [token?, outline, Array.getElem?_map]
  cases chart.columns[column]? <;> rfl

@[simp] theorem find?_outline (column : Nat) (key : ItemKey) :
    chart.outline.find? column key = chart.find? column key := by
  simp only [find?, outline, Array.getElem?_map]
  cases chart.columns[column]? <;> rfl

@[simp] theorem itemCount_outline : chart.outline.itemCount = chart.itemCount := by
  unfold itemCount outline
  rw [← Array.foldl_toList, ← Array.foldl_toList, Array.toList_map, List.foldl_map]
  simp only [Column.size_items_outline]

theorem extend_outline (column : Nat) (token : Option Token) :
    (chart.extend column token).outline = chart.outline.extend column (token.map Token.outline) := by
  have size : chart.outline.columns.size = chart.columns.size := chart.size_outline
  unfold extend
  rw [size]
  split
  next => simp [outline, Column.empty_outline]
  next => rfl

/-- Insertion decides by outlines. -/
theorem insert_outline (column : Nat) (item : Item) (token : Option Token) :
    chart.outline.insert column item.outline (token.map Token.outline) =
      ((chart.insert column item token).1.outline, (chart.insert column item token).2) := by
  unfold insert
  rw [Item.origin_outline, Item.key_outline, ← extend_outline]
  split
  next => rfl
  next =>
    have found : (chart.extend column token).outline.columns[column]? =
        ((chart.extend column token).columns[column]?).map Column.outline :=
      (chart.extend column token).column?_outline column
    have size : (chart.extend column token).outline.columns.size =
        (chart.extend column token).columns.size :=
      (chart.extend column token).size_outline
    dsimp only
    rw [found, size]
    generalize chart.extend column token = extended
    cases extended.columns[column]? with
    | none => rfl
    | some present =>
        simp only [Option.map_some, Column.find?_outline, Column.size_items_outline]
        cases present.find? item.key with
        | some index => rfl
        | none =>
            simp only [outline, Prod.mk.injEq, Chart.mk.injEq, and_true]
            apply Array.ext_getElem?
            intro index
            simp only [Array.getElem?_modify, Array.getElem?_map]
            split
            · cases extended.columns[index]? <;> simp [Column.push_outline]
            · rfl

theorem startFormWithin_outline (steps : Nat) (place : ItemRef) :
    chart.outline.startFormWithin steps place = chart.startFormWithin steps place := by
  induction steps generalizing place with
  | zero => rfl
  | succ steps inductionHypothesis =>
      simp only [startFormWithin, item?_outline, Option.map_map, inductionHypothesis]
      rfl

@[simp] theorem startForm?_outline (place : ItemRef) :
    chart.outline.startForm? place = chart.startForm? place := by
  simp only [startForm?, itemCount_outline, startFormWithin_outline]

theorem waitingFor_outline (first : ItemRef) (steps : Nat) (place : ItemRef) :
    chart.outline.waitingFor first steps place = chart.waitingFor first steps place := by
  induction steps generalizing place with
  | zero =>
      unfold waitingFor
      simp only [startForm?_outline, item?_outline, Option.map_map]
      rfl
  | succ steps inductionHypothesis =>
      unfold waitingFor
      simp only [startForm?_outline, item?_outline, Option.map_map, inductionHypothesis]
      rfl

@[simp] theorem derivationChain_outline (place : ItemRef) :
    chart.outline.derivationChain place = chart.derivationChain place := by
  simp only [derivationChain, itemCount_outline, waitingFor_outline]

section Alike

variable {chart} {other : Chart} (same : chart.outline = other.outline)
include same

theorem size_congr : chart.size = other.size := by
  rw [← chart.size_outline, same, other.size_outline]

theorem find?_congr (column : Nat) (key : ItemKey) :
    chart.find? column key = other.find? column key := by
  rw [← chart.find?_outline, same, other.find?_outline]

theorem column?_congr (column : Nat) :
    (chart.column? column).map Column.outline = (other.column? column).map Column.outline := by
  rw [← chart.column?_outline, same, other.column?_outline]

theorem item?_congr (place : ItemRef) :
    (chart.item? place).map Item.outline = (other.item? place).map Item.outline := by
  rw [← chart.item?_outline, same, other.item?_outline]

end Alike

end Chart

namespace Grammar

variable (grammar : Grammar)

@[simp] theorem production?_outline (id : ProductionId) :
    grammar.outline.production? id = (grammar.production? id).map Production.outline := by
  simp [production?, outline]

theorem production?_congr {grammar other : Grammar} (same : grammar.outline = other.outline)
    (id : ProductionId) :
    (grammar.production? id).map Production.outline =
      (other.production? id).map Production.outline := by
  rw [← grammar.production?_outline, same, other.production?_outline]

@[simp] theorem symbolAt?_outline (id : ProductionId) (dot : Nat) :
    grammar.outline.symbolAt? id dot = grammar.symbolAt? id dot := by
  simp only [symbolAt?, production?_outline]
  cases grammar.production? id <;> rfl

@[simp] theorem dotCount_outline : grammar.outline.dotCount = grammar.dotCount := by
  unfold dotCount outline
  rw [← Array.foldl_toList, ← Array.foldl_toList, Array.toList_map, List.foldl_map]
  rfl

@[simp] theorem dotted_outline (id : ProductionId) (dot : Nat) :
    grammar.outline.dotted id dot = grammar.dotted id dot := by
  have dottedFrom (index : Nat) (symbols : List SymbolId) :
      grammar.outline.dottedFrom dot index symbols = grammar.dottedFrom dot index symbols := by
    induction symbols generalizing index with
    | nil => rfl
    | cons symbol rest inductionHypothesis =>
        simp only [Grammar.dottedFrom, inductionHypothesis]
        rfl
  simp only [dotted, production?_outline]
  cases grammar.production? id with
  | none => rfl
  | some production =>
      simp only [Option.map_some, dottedFrom]
      rfl

end Grammar

end EarleyChart
