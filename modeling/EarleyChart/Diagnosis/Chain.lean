import EarleyChart.Chart.Basic

/-!
Contract: derivation chains, from an item out to the item that a parse starts with.

An item goes back to its form with the dot at the start, which was predicted by the item that waits
for its left-hand side; that item is the next of the chain.
-/

namespace EarleyChart.Chart

/-- The items that wait for `place`, nearest first, of which there may be at most `steps`. The
chain started at `first`. -/
def waitingFor (chart : Chart) (first : ItemRef) :
    (steps : Nat) → (place : ItemRef) → Except ChartFault (List ItemRef)
  | steps, place =>
      match chart.startForm? place with
      | none => .error (.missingItem place)
      | some start =>
          match (chart.item? start).map Item.provenance with
          | none => .error (.missingItem start)
          | some (.predicted predictor) =>
              match steps with
              | 0 => .error (.endlessChain first)
              | steps + 1 => (chart.waitingFor first steps predictor).map (predictor :: ·)
          | some _ => .ok []

/-- The chain of an item. It cannot be longer than the chart has items. -/
def derivationChain (chart : Chart) (place : ItemRef) : Except ChartFault (List ItemRef) :=
  (chart.waitingFor place (chart.itemCount - 1) place).map (place :: ·)

end EarleyChart.Chart
