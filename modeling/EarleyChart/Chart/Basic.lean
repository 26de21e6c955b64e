import EarleyChart.Chart.Fault

/-!
Contract: charts, the table of the items of each input position.

Columns and items are only ever added at the end, so an address keeps denoting the same item. A
column holds no two items of one key: of two the first stays. The column after the last one comes into
being with its first item and records the token that led there.
-/

namespace EarleyChart

/-- The items of one input position in the order of their discovery. -/
structure Column where
  index : Nat
  token : Option Token
  items : Array Item
  /-- Where the item of each key stands. -/
  keys : Std.TreeMap ItemKey Nat
deriving Inhabited

namespace Column

def empty (index : Nat) (token : Option Token) : Column where
  index := index
  token := token
  items := #[]
  keys := ∅

/-- Where the item with a key stands. -/
def find? (column : Column) (key : ItemKey) : Option Nat :=
  column.keys[key]?

/-- Adds an item after the others. -/
def push (column : Column) (item : Item) : Column :=
  { column with
    keys := column.keys.insert item.key column.items.size
    items := column.items.push item }

/-- The places before `limit` whose item has a property. -/
def indicesBelow (column : Column) (limit : Nat) (property : Item → Bool) : List Nat :=
  (List.range (min limit column.items.size)).filter fun index =>
    (column.items[index]?).any property

/-- The places whose item has a property. -/
def indices (column : Column) (property : Item → Bool) : List Nat :=
  column.indicesBelow column.items.size property

end Column

/-- What became of an item that was to be inserted. -/
inductive Insertion where
  | added (place : ItemRef)
  | duplicate (place : ItemRef)
deriving DecidableEq, Repr, Inhabited

/-- A table of columns. -/
structure Chart where
  columns : Array Column
deriving Inhabited

namespace Chart

/-- A chart without columns. -/
def empty : Chart :=
  ⟨#[]⟩

/-- A chart with one column that holds one item. -/
def seeded (item : Item) : Chart :=
  ⟨#[(Column.empty 0 none).push item]⟩

def size (chart : Chart) : Nat :=
  chart.columns.size

/-- Number of items in all columns. -/
def itemCount (chart : Chart) : Nat :=
  chart.columns.foldl (fun count column => count + column.items.size) 0

def column? (chart : Chart) (index : Nat) : Option Column :=
  chart.columns[index]?

def item? (chart : Chart) (place : ItemRef) : Option Item :=
  (chart.columns[place.column]?).bind (·.items[place.index]?)

/-- The token that led into a column. -/
def token? (chart : Chart) (index : Nat) : Option Token :=
  (chart.columns[index]?).bind Column.token

/-- Where a column holds the item with a key. -/
def find? (chart : Chart) (column : Nat) (key : ItemKey) : Option ItemRef :=
  ((chart.columns[column]?).bind (·.find? key)).map (ItemRef.mk column)

/-- Adds the column after the last one, if `column` is that one. -/
def extend (chart : Chart) (column : Nat) (token : Option Token) : Chart :=
  if column = chart.columns.size then ⟨chart.columns.push (Column.empty column token)⟩ else chart

/-- Inserts an item into a column, unless the column holds its key. The column after the last one
is made on the way and records `token`. -/
def insert (chart : Chart) (column : Nat) (item : Item) (token : Option Token) :
    Chart × Except ChartFault Insertion :=
  if column < item.origin then (chart, .error (.originAfterColumn item.origin column))
  else
    let chart := chart.extend column token
    match chart.columns[column]?.map fun found => (found.find? item.key, found.items.size) with
    | none => (chart, .error (.skippedColumn column chart.columns.size))
    | some (some index, _) => (chart, .ok (.duplicate ⟨column, index⟩))
    | some (none, index) =>
        (⟨chart.columns.modify column (·.push item)⟩, .ok (.added ⟨column, index⟩))

/-- Follows scans and completions back to the item with its dot at the start, in at most `steps`
steps. -/
def startFormWithin (chart : Chart) : (steps : Nat) → ItemRef → Option ItemRef
  | 0, _ => none
  | steps + 1, place =>
      match (chart.item? place).map Item.provenance with
      | none => none
      | some (.scanned source) => chart.startFormWithin steps source
      | some (.completed parent _) => chart.startFormWithin steps parent
      | some .seed => some place
      | some (.predicted _) => some place

/-- The item with its dot at the start that an item goes back to. Links that do not form a cycle
visit an item at most once, so the number of items bounds them. -/
def startForm? (chart : Chart) (place : ItemRef) : Option ItemRef :=
  chart.startFormWithin (chart.itemCount + 1) place

end Chart

end EarleyChart
