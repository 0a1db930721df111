import FlowCanvas.Layer.Graph

/-!
The order inside layers. Two edges between neighbouring layers cross when their ends are in opposite
orders. A sweep sorts every layer by the medians of its neighbours above, going down, and then by
those below, going up; of all orders seen, the first with the fewest crossings is kept.
-/

namespace FlowCanvas

abbrev Layers := List (List Nat)

namespace Layers

def place? (layers : Layers) (slot : Nat) : Option Nat :=
  layers.findSome? fun layer => layer.idxOf? slot

def segments (g : LayerGraph) (upper lower : List Nat) : List (Nat × Nat) :=
  upper.zipIdx.flatMap fun (s, i) =>
    (g.successors s).filterMap fun t => (lower.idxOf? t).map fun j => (i, j)

def crosses (a b : Nat × Nat) : Bool :=
  (a.1 < b.1 && b.2 < a.2) || (b.1 < a.1 && a.2 < b.2)

def crossingPairs : List (Nat × Nat) → Nat
  | [] => 0
  | a :: rest => rest.countP (crosses a) + crossingPairs rest

def crossings (g : LayerGraph) : Layers → Nat
  | upper :: lower :: rest => crossingPairs (segments g upper lower) + crossings g (lower :: rest)
  | _ => 0

def twiceMedian? (places : List Nat) : Option Nat :=
  let sorted := places.mergeSort
  let mid := sorted.length / 2
  if sorted.length % 2 = 1 then sorted[mid]?.map (2 * ·)
  else sorted[mid - 1]?.bind fun a => sorted[mid]?.map fun b => a + b

/-- Sorts a layer by the medians of the neighbours' places. A slot without placed neighbours stands
at its own place, and equal slots keep their order. -/
def sortLayer (layers : Layers) (neighbors : Nat → List Nat) (layer : List Nat) : List Nat :=
  let keyed := layer.zipIdx.map fun (s, i) =>
    ((twiceMedian? ((neighbors s).filterMap layers.place?)).getD (2 * i), s)
  (keyed.mergeSort fun a b => a.1 ≤ b.1).map (·.2)

def sortAt (neighbors : Nat → List Nat) (layers : Layers) (rank : Nat) : Layers :=
  layers.modify rank (sortLayer layers neighbors)

def sweep (g : LayerGraph) (layers : Layers) : Layers :=
  let down := (List.range' 1 (layers.length - 1)).foldl (sortAt g.predecessors) layers
  (List.range (layers.length - 1)).reverse.foldl (sortAt g.successors) down

/-- Sweeps up to `passes` times and keeps the best order; without crossings there is nothing left
to do. -/
def improve (g : LayerGraph) : Nat → Layers → Layers → Nat → Layers
  | 0, _, best, _ => best
  | passes + 1, current, best, fewest =>
    if fewest = 0 then best
    else
      let next := sweep g current
      let count := crossings g next
      if count < fewest then improve g passes next next count
      else improve g passes next best fewest

def ordered (g : LayerGraph) (passes : Nat) (layers : Layers) : Layers :=
  if layers.length ≤ 1 then layers
  else improve g (max passes 1) layers layers (crossings g layers)

theorem crosses_comm (a b : Nat × Nat) : crosses a b = crosses b a := by
  simp only [crosses]
  exact Bool.or_comm _ _

theorem sortLayer_perm (layers : Layers) (neighbors : Nat → List Nat) (layer : List Nat) :
    (sortLayer layers neighbors layer).Perm layer := by
  have h := (List.mergeSort_perm (layer.zipIdx.map fun (s, i) =>
    ((twiceMedian? ((neighbors s).filterMap layers.place?)).getD (2 * i), s))
    fun a b => decide (a.1 ≤ b.1)).map (·.2)
  refine h.trans (.of_eq ?_)
  simp [List.map_map, Function.comp_def]

end Layers

end FlowCanvas
