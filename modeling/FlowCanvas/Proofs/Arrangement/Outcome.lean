import FlowCanvas.Arrangement
import FlowCanvas.Proofs.Diagram.Element

/-! What becomes of a node. It depends on the node, on whether it is the first of its id, and on the
plan of the diagram. An arrangement lists this for each node, in order. -/

namespace FlowCanvas

variable {α : Type} [Scalar α]

namespace Plan

section Settle

variable (p : Plan α) (tools : List (ToolPlace α)) {n : Node α} {m : Bool × Node α}

theorem settle_node_id (m : Bool × Node α) : (p.settle tools m).1.id = m.2.id := by
  unfold settle placed spare
  split
  · split <;> rfl
  · rfl

theorem settle_of_plain (htool : n.isTool = false) :
    (p.settle tools (true, n)).1.position = p.position n ∧
      (p.settle tools (true, n)).1.kind = n.kind ∧
      (p.settle tools (true, n)).2 = ⟨n.id, n.kind, p.frames.parent? n.id, p.rect n⟩ := by
  change (p.placed tools n).1.position = _ ∧ (p.placed tools n).1.kind = _ ∧
    (p.placed tools n).2 = _
  rw [placed, htool]
  exact ⟨rfl, rfl, rfl⟩

theorem settle_box_of_plain (htool : n.isTool = false) :
    (p.settle tools (true, n)).2 = ⟨n.id, n.kind, p.frames.parent? n.id, p.rect n⟩ :=
  (settle_of_plain p tools htool).2.2

theorem settle_box (m : Bool × Node α) :
    (p.settle tools m).2.id = m.2.id ∧ (p.settle tools m).2.kind = m.2.kind := by
  unfold settle placed spare
  split
  · split
    · exact ⟨rfl, rfl⟩
    · exact ⟨rfl, rfl⟩
  · exact ⟨rfl, rfl⟩

theorem settle_box_id (m : Bool × Node α) : (p.settle tools m).2.id = m.2.id :=
  (settle_box p tools m).1

theorem settle_of_group (hgroup : n.isGroup = true) :
    (p.settle tools (true, n)).1 = { n with
      position := (p.settle tools (true, n)).1.position
      style := { n.style with
        width := some (.number (p.settle tools (true, n)).2.rect.width)
        height := some (.number (p.settle tools (true, n)).2.rect.height) } } := by
  change (p.placed tools n).1 = { n with
    position := (p.placed tools n).1.position
    style := { n.style with
      width := some (.number (p.placed tools n).2.rect.width)
      height := some (.number (p.placed tools n).2.rect.height) } }
  rw [placed, Diagram.isTool_of_isGroup hgroup, hgroup]
  rfl

theorem settle_of_other (hother : ¬ (m.2.isGroup = true ∧ m.1 = true)) :
    (p.settle tools m).1 = { m.2 with position := (p.settle tools m).1.position } := by
  obtain ⟨first, n⟩ := m
  cases first with
  | false => rfl
  | true =>
    have hgroup : n.isGroup = false := by simpa using hother
    change (p.placed tools n).1 = { n with position := (p.placed tools n).1.position }
    rw [placed, hgroup]
    cases n.isTool with
    | true => rfl
    | false => rfl

end Settle

theorem arrangement_nodes (p : Plan α) (d : Diagram α) :
    (p.arrangement d).nodes = d.marked.map fun m => (p.settle (p.tools d.edges) m).1 :=
  List.map_map

theorem arrangement_boxes (p : Plan α) (d : Diagram α) :
    (p.arrangement d).boxes = d.marked.map fun m => (p.settle (p.tools d.edges) m).2 :=
  List.map_map

theorem arrangement_node? (p : Plan α) (d : Diagram α) (id : String) :
    (p.arrangement d).nodes.find? (·.id == id) =
      (d.node? id).map fun n => (p.settle (p.tools d.edges) (true, n)).1 := by
  have hid : ((fun m : Node α => m.id == id) ∘ fun m => (p.settle (p.tools d.edges) m).1) =
      fun m => m.2.id == id := by
    funext m
    rw [Function.comp_apply, settle_node_id]
  rw [arrangement_nodes, List.find?_map, hid, d.find?_marked, Option.map_map]
  rfl

theorem arrangement_box? (p : Plan α) (d : Diagram α) (id : String) :
    (p.arrangement d).box? id =
      (d.node? id).map fun n => (p.settle (p.tools d.edges) (true, n)).2 := by
  have hid : ((fun b : Box α => b.id == id) ∘ fun m => (p.settle (p.tools d.edges) m).2) =
      fun m => m.2.id == id := by
    funext m
    rw [Function.comp_apply, settle_box_id]
  rw [Arrangement.box?, arrangement_boxes, List.find?_map, hid, d.find?_marked, Option.map_map]
  rfl

def toolPlaces (s : LayoutSettings α) (d : Diagram α) : List (ToolPlace α) :=
  (ofDiagram s d).scene.placeTools s (Frames.build d) d.edges

abbrev outcome (s : LayoutSettings α) (d : Diagram α) (m : Bool × Node α) : Node α × Box α :=
  (ofDiagram s d).settle (toolPlaces s d) m

theorem outcome_of_first (s : LayoutSettings α) (d : Diagram α) (n : Node α) :
    outcome s d (true, n) = (ofDiagram s d).placed (toolPlaces s d) n := rfl

theorem outcome_box_of_plain (s : LayoutSettings α) (d : Diagram α) {n : Node α}
    (htool : n.isTool = false) : (outcome s d (true, n)).2 =
      ⟨n.id, n.kind, (Frames.build d).parent? n.id, (ofDiagram s d).rect n⟩ :=
  settle_box_of_plain _ _ htool

theorem outcome_of_copy (s : LayoutSettings α) (d : Diagram α) (n : Node α) :
    outcome s d (false, n) = (ofDiagram s d).spare n := rfl

end Plan

namespace Diagram

variable (s : LayoutSettings α) (d : Diagram α) {i : Nat} {m : Bool × Node α}

theorem arrange_outcome : d.arrange s =
    ⟨(d.marked.map (Plan.outcome s d)).map (·.1), (d.marked.map (Plan.outcome s d)).map (·.2),
      Arrangement.boundsOf ((d.marked.map (Plan.outcome s d)).map (·.2))⟩ := rfl

theorem nodes_outcome : (d.arrange s).nodes = d.marked.map fun m => (Plan.outcome s d m).1 :=
  Plan.arrangement_nodes _ d

theorem boxes_outcome : (d.arrange s).boxes = d.marked.map fun m => (Plan.outcome s d m).2 :=
  Plan.arrangement_boxes _ d

theorem node_outcome (hm : d.marked[i]? = some m) :
    (d.arrange s).nodes[i]? = some (Plan.outcome s d m).1 := by
  rw [nodes_outcome, List.getElem?_map, hm, Option.map_some]

theorem box_outcome (hm : d.marked[i]? = some m) :
    (d.arrange s).boxes[i]? = some (Plan.outcome s d m).2 := by
  rw [boxes_outcome, List.getElem?_map, hm, Option.map_some]

end Diagram

end FlowCanvas
