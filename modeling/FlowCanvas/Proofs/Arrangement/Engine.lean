import FlowCanvas.Proofs.Arrangement.Group
import FlowCanvas.Proofs.Arrangement.Outcome

/-! Arrangements by either engine. An engine says where the elements in no group go and nothing
else: the sizes of the groups, and the positions of what is in them, are those that the fits give.
An arrangement is missing only if the pass of dagre was run and never came back. -/

namespace FlowCanvas

/-- A pass that knows what to do with one node: it leaves the node at the margin. -/
def Dagre.lone {α : Type} [Scalar α] : Dagre Option α := fun graph =>
  match graph.nodes with
  | [(id, size)] => some fun asked =>
    if asked = id then
      some ⟨graph.margin + size.width / Scalar.two, graph.margin + size.height / Scalar.two⟩
    else none
  | _ => none

namespace Diagram

variable {α : Type} [Scalar α] (s : LayoutSettings α) (d : Diagram α)

def dagreGraph : Dagre.Graph α :=
  (Frames.build d).dagreGraph s d.edges (Fits.sizeOf s ((Frames.build d).fits s))

/-- The pass of dagre is run for a diagram, and it never comes back. -/
structure Stalls (dagre : Dagre Option α) : Prop where
  asked : s.engine = .dagre
  layered : (Frames.build d).layered ≠ []
  silent : dagre (dagreGraph s d) = none

theorem arrangeBy_eq_none (dagre : Dagre Option α) :
    d.arrangeBy dagre s = none ↔ Stalls s d dagre := by
  have hcenters : (Frames.build d).centersBy s d.edges
      (Fits.sizeOf s ((Frames.build d).fits s)) dagre = none ↔ Stalls s d dagre := by
    unfold Frames.centersBy
    cases hengine : s.engine with
    | layered =>
      refine ⟨fun h => absurd h (Option.some_ne_none _), fun h => ?_⟩
      rw [h.asked] at hengine
      cases hengine
    | dagre =>
      by_cases hempty : (Frames.build d).layered = []
      · simp only [hempty, List.isEmpty_nil, if_true]
        exact ⟨fun h => absurd h (Option.some_ne_none _), fun h => absurd hempty h.layered⟩
      · have hsome : (Frames.build d).layered.isEmpty = false := by simpa using hempty
        simp only [hsome, Bool.false_eq_true, if_false, Option.map_eq_map, Option.map_eq_none_iff]
        exact ⟨fun h => ⟨hengine, hempty, h⟩, fun h => h.silent⟩
  rw [← hcenters, arrangeBy, Option.map_eq_map, Option.map_eq_none_iff]

end Diagram

namespace Plan

variable (s : LayoutSettings Rat) (d : Diagram Rat) (centers : List (String × Point Rat))
  {n g : Node Rat}

def around : Plan Rat := ofCenters s (Frames.build d) ((Frames.build d).fits s) centers

theorem around_frames : (around s d centers).frames = Frames.build d := rfl

theorem around_size (n : Node Rat) : (around s d centers).size n = (ofDiagram s d).size n := rfl

theorem around_position {p : String} (h : (Frames.build d).parent? n.id = some p) :
    (around s d centers).position n = (ofDiagram s d).position n := by
  rw [position, around_frames, h, position_of_grouped s d h]
  rfl

theorem around_corner (hg : g ∈ d.elements) (h : (Frames.build d).parent? n.id = some g.id) :
    (around s d centers).corner n =
      ⟨((ofDiagram s d).position n).x + ((around s d centers).corner g).x,
        ((ofDiagram s d).position n).y + ((around s d centers).corner g).y⟩ := by
  rw [← around_position s d centers h]
  exact corner_of_parent (p := around s d centers) (Frames.build_wellFormed d) hg h

end Plan

theorem Diagram.around_of_arrangeBy {s : LayoutSettings Rat} {d : Diagram Rat}
    {dagre : Dagre Option Rat} {a : Arrangement Rat} (h : d.arrangeBy dagre s = some a) :
    ∃ centers, (Plan.around s d centers).arrangement d = a := by
  obtain ⟨centers, -, ha⟩ := Option.map_eq_some_iff.mp h
  exact ⟨centers, ha⟩

end FlowCanvas
