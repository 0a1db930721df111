import FlowCanvas.Layer.Graph

/-!
Removing back edges. A depth-first search goes over the slots in order and keeps every edge except
those to a slot that is still open, which would close a cycle. The search holds the slots that it
has not met and a stack of the open slots with the successors it has yet to look at; each step takes
a slot from the former or shortens the latter.
-/

namespace FlowCanvas.LayerGraph

def isOpen (stack : List (Nat × List Nat)) (slot : Nat) : Bool := stack.any (·.1 == slot)

def work : List (Nat × List Nat) → Nat
  | [] => 0
  | (_, ts) :: stack => ts.length + 1 + work stack

def explore (g : LayerGraph) (fresh : List Nat) (stack : List (Nat × List Nat))
    (kept : List (Nat × Nat)) : List (Nat × Nat) :=
  match fresh, stack with
  | [], [] => kept
  | root :: fresh, [] => explore g fresh [(root, g.successors root)] kept
  | fresh, (_, []) :: stack => explore g fresh stack kept
  | fresh, (s, t :: ts) :: stack =>
    if t ∈ fresh then
      explore g (fresh.erase t) ((t, g.successors t) :: (s, ts) :: stack) ((s, t) :: kept)
    else if isOpen ((s, ts) :: stack) t then explore g fresh ((s, ts) :: stack) kept
    else explore g fresh ((s, ts) :: stack) ((s, t) :: kept)
termination_by (fresh.length, work stack)
decreasing_by
  · exact Prod.Lex.left _ _ (by simp)
  · exact Prod.Lex.right _ (by simp [work])
  · rename_i h
    refine Prod.Lex.left _ _ ?_
    have := List.length_pos_of_mem h
    rw [List.length_erase_of_mem h]
    omega
  · exact Prod.Lex.right _ (by simp only [work, List.length_cons]; omega)
  · exact Prod.Lex.right _ (by simp only [work, List.length_cons]; omega)

def keptEdges (g : LayerGraph) : List (Nat × Nat) := explore g (List.range g.size) [] []

/-- The graph without its back edges. Edges are in the order of their sources, and those of one
source in their old order. -/
def withoutBackEdges (g : LayerGraph) : LayerGraph :=
  let kept := g.keptEdges
  ofEdges g.size <| (List.range g.size).flatMap fun s =>
    ((g.successors s).map fun t => (s, t)).filter kept.contains

theorem withoutBackEdges_size (g : LayerGraph) : g.withoutBackEdges.size = g.size :=
  ofEdges_size _ _

end FlowCanvas.LayerGraph
