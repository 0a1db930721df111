import FlowCanvas.Flow
import FlowCanvas.Proofs.Diagram.Element
import FlowCanvas.Proofs.Tool.Turn

/-! Frames of changed nodes. Frames look at the ids, kinds and parents of nodes only, so if nodes
change but keep these, the same links are kept, the same routes are found, and in the same scene
tools take the same places. -/

namespace FlowCanvas

variable {α : Type}

structure Node.Keeps (change : Node α → Node α) : Prop where
  id : ∀ n, (change n).id = n.id
  kind : ∀ n, (change n).kind = n.kind
  parent : ∀ n, (change n).parent = n.parent

namespace Node.Keeps

variable {change : Node α → Node α} (h : Node.Keeps change)

include h

theorem isTool (n : Node α) : (change n).isTool = n.isTool := by
  rw [Node.isTool, h.kind, Node.isTool]

theorem isGroup (n : Node α) : (change n).isGroup = n.isGroup := by
  rw [Node.isGroup, h.kind, Node.isGroup]

end Node.Keeps

namespace Diagram

theorem mark_map {change : Bool × Node α → Node α} (hid : ∀ m, (change m).id = m.2.id)
    (seen : List String) (ns : List (Node α)) :
    mark seen ((mark seen ns).map change) = (mark seen ns).map fun m => (m.1, change m) := by
  induction ns generalizing seen with
  | nil => rfl
  | cons n ns ih => simp only [mark, List.map_cons, hid, ih]

end Diagram

namespace Frames

variable {change : Node α → Node α} (h : Node.Keeps change)

def map (change : Node α → Node α) (f : Frames α) : Frames α := ⟨f.elements.map change, f.links⟩

include h

theorem find?_map (elements : List (Node α)) (id : String) :
    find? (elements.map change) id = (find? elements id).map change := by
  have hsame : ((fun m : Node α => m.id == id) ∘ change) = fun m => m.id == id := by
    funext m
    rw [Function.comp_apply, h.id]
  rw [find?, List.find?_map, hsame, find?]

theorem candidate?_map (elements : List (Node α)) (n : Node α) :
    candidate? (elements.map change) (change n) = candidate? elements n := by
  have hgroup (p : String) :
      ((find? (elements.map change) p).bind fun m => if m.isGroup then some p else none) =
        (find? elements p).bind fun m => if m.isGroup then some p else none := by
    rw [find?_map h]
    cases find? elements p with
    | none => rfl
    | some m => simp only [Option.map_some, Option.bind_some, h.isGroup]
  simp only [candidate?, h.isTool, h.parent, hgroup]

theorem keep_map (elements : List (Node α)) (links : List (String × String)) (n : Node α) :
    keep (elements.map change) links (change n) = keep elements links n := by
  rw [keep, keep, candidate?_map h, h.id]

theorem build_map {d d' : Diagram α} (helements : d'.elements = d.elements.map change) :
    build d' = (build d).map change := by
  have hlinks : d'.elements.foldl (keep d'.elements) [] =
      d.elements.foldl (keep d.elements) [] := by
    rw [helements, List.foldl_map]
    congr 1
    funext links n
    exact keep_map h d.elements links n
  rw [build, hlinks, helements]
  rfl

variable (f : Frames α)

theorem element?_map (id : String) : (f.map change).element? id = (f.element? id).map change :=
  find?_map h f.elements id

theorem children_map (id : String) : (f.map change).children id = (f.children id).map change := by
  rw [children, map, List.filter_map]
  congr 1
  apply List.filter_congr
  intro n _
  rw [Function.comp_apply, h.id]
  rfl

theorem layered_map : (f.map change).layered = f.layered.map change := by
  rw [layered, map, List.filter_map]
  congr 1
  apply List.filter_congr
  intro n _
  rw [Function.comp_apply, h.id, h.isTool]
  rfl

theorem layeredIds_map : (f.map change).layeredIds = f.layeredIds := by
  rw [layeredIds, layered_map h, List.map_map]
  exact List.map_congr_left fun n _ => h.id n

theorem toolIds_map : (f.map change).tools.map (·.id) = f.tools.map (·.id) := by
  have htool : (Node.isTool ∘ change) = Node.isTool := funext h.isTool
  have hid : ((fun n : Node α => n.id) ∘ change) = fun n => n.id := funext h.id
  rw [tools, map, List.filter_map, List.map_map, htool, hid]
  rfl

theorem contracted?_map (e : Edge) : (f.map change).contracted? e = f.contracted? e := by
  rw [contracted?, element?_map h, element?_map h, Option.isSome_map, Option.isSome_map]
  rfl

theorem routes_map (edges : List Edge) : (f.map change).routes edges = f.routes edges := by
  have hcontracted : (f.map change).contracted? = f.contracted? := funext (contracted?_map h f)
  rw [routes, layeredIds_map h, hcontracted, routes]

theorem slotRoutes_map (edges : List Edge) :
    (f.map change).slotRoutes edges = f.slotRoutes edges := by
  rw [slotRoutes, layeredIds_map h, routes_map h, slotRoutes]

end Frames

namespace Scene

variable {change : Node α → Node α} (h : Node.Keeps change) (scene : Scene α) (f : Frames α)
  (edges : List Edge)

include h

theorem anchor?_map (tool : String) :
    scene.anchor? (f.map change) edges tool = scene.anchor? f edges tool := by
  simp only [anchor?, Frames.element?_map h]
  congr 1
  funext e
  cases f.element? e.source with
  | none => rfl
  | some n => simp only [Option.map_some, Option.bind_some, h.isTool, h.isGroup]

variable [Scalar α] (s : LayoutSettings α)

theorem placeTools_map : scene.placeTools s (f.map change) edges = scene.placeTools s f edges := by
  rw [placeTools, Frames.toolIds_map h, placeTools,
    seats_congr scene s fun tool _ => anchor?_map h scene f edges tool]

end Scene

end FlowCanvas
