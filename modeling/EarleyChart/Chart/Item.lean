import Std.Data.TreeMap
import EarleyChart.Grammar.Basic

/-!
Contract: the items of a chart.

An item is a production matched up to a dot, with the column where the match began, the values of
what it has matched and the way it came into the chart. Items with the same key are the same
match; how they were found and what values they hold does not count.
-/

namespace EarleyChart

/-- Address of an item: its column and its place there. -/
structure ItemRef where
  column : Nat
  index : Nat
deriving DecidableEq, Repr, Inhabited

/-- The inspected form of an address. -/
def ItemRef.inspect (place : ItemRef) : String :=
  "ItemRef \x7b " ++ s!"column: {place.column}, index: {place.index}" ++ " \x7d"

/-- How an item came into the chart. -/
inductive Provenance where
  /-- A parse starts with it. -/
  | seed
  /-- `predictor` has the item's left-hand side after its dot. -/
  | predicted (predictor : ItemRef)
  /-- `source` moved its dot over the token of the item's column. -/
  | scanned (source : ItemRef)
  /-- `parent` moved its dot over the left-hand side of the complete item `child`. -/
  | completed (parent child : ItemRef)
deriving DecidableEq, Repr, Inhabited

/-- The values that an item holds: one for each matched symbol, or the reduced one at the end. -/
inductive Payload where
  | matched (values : List Value)
  | reduced (value : Value)
deriving Inhabited

/-- A production matched up to a dot. -/
structure Item where
  production : ProductionId
  dot : Nat
  origin : Nat
  payload : Payload
  provenance : Provenance
deriving Inhabited

/-- What tells the items of a column apart. Dot and origin are words of 32 bits. -/
structure ItemKey where
  production : ProductionId
  dot : UInt32
  origin : UInt32
deriving DecidableEq, Repr, Inhabited

namespace ItemKey

instance : Ord ItemKey :=
  ⟨compareLex (compareOn production) (compareLex (compareOn dot) (compareOn origin))⟩

instance : Std.TransOrd ItemKey :=
  inferInstanceAs (Std.TransCmp
    (compareLex (compareOn production) (compareLex (compareOn dot) (compareOn origin))))

instance : Std.LawfulEqOrd ItemKey where
  eq_of_compare {left right} equal := by
    have parts : ((compare left.production right.production).then
        ((compare left.dot right.dot).then (compare left.origin right.origin))) = .eq := equal
    simp only [Ordering.then_eq_eq, Std.LawfulEqOrd.compare_eq_iff_eq] at parts
    cases left
    cases right
    simp_all

end ItemKey

namespace Item

def key (item : Item) : ItemKey where
  production := item.production
  dot := UInt32.ofNat item.dot
  origin := UInt32.ofNat item.origin

/-- The reduced value of a complete item. -/
def value? (item : Item) : Option Value :=
  match item.payload with
  | .reduced value => some value
  | .matched _ => none

def isComplete (item : Item) : Bool :=
  item.value?.isSome

/-- The values matched so far by an item that is not complete. -/
def children (item : Item) : List Value :=
  match item.payload with
  | .matched values => values
  | .reduced _ => []

/-- The symbol after the dot. -/
def next? (grammar : Grammar) (item : Item) : Option SymbolId :=
  grammar.symbolAt? item.production item.dot

end Item

end EarleyChart
