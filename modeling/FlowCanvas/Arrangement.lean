import FlowCanvas.Dagre
import FlowCanvas.Tool

/-!
The arrangement of a diagram. Groups are fitted around what is in them, the elements in no group go
where the engine puts them, and tools are placed last, around all else. Nodes keep all that they
carry but their position and, for groups, their declared size.
-/

namespace FlowCanvas

variable {α : Type} [Scalar α]

structure Box (α : Type) where
  id : String
  kind : NodeKind
  parent : Option String
  rect : Rect α

structure Arrangement (α : Type) where
  nodes : List (Node α)
  boxes : List (Box α)
  bounds : Rect α

/-- Where everything but the tools goes: the fits of groups and the corners of layered elements. -/
structure Plan (α : Type) where
  settings : LayoutSettings α
  frames : Frames α
  fits : Fits α
  corners : List (String × Point α)

namespace Plan

def cornerOf (center : Point α) (size : Size α) : Point α :=
  ⟨center.x - size.width / Scalar.two, center.y - size.height / Scalar.two⟩

/-- The plan that has the layered elements around given centres, which come in their order. -/
def ofCenters (s : LayoutSettings α) (f : Frames α) (fits : Fits α)
    (centers : List (String × Point α)) : Plan α :=
  let corners := (f.layered.zip centers).map fun (n, (_, center)) =>
    (n.id, Grid.snapPoint (cornerOf center (Fits.sizeOf s fits n)) s.gridSize)
  ⟨s, f, fits, corners⟩

/-- The plan by the layered engine. -/
def ofDiagram (s : LayoutSettings α) (d : Diagram α) : Plan α :=
  let f := Frames.build d
  let fits := f.fits s
  ofCenters s f fits (f.centers s d.edges (Fits.sizeOf s fits))

@[simp] theorem ofDiagram_settings (s : LayoutSettings α) (d : Diagram α) :
    (ofDiagram s d).settings = s := rfl

@[simp] theorem ofDiagram_frames (s : LayoutSettings α) (d : Diagram α) :
    (ofDiagram s d).frames = Frames.build d := rfl

variable (p : Plan α)

def size (n : Node α) : Size α := Fits.sizeOf p.settings p.fits n

def position (n : Node α) : Point α :=
  match p.frames.parent? n.id with
  | some group => Fits.positionInGroup p.settings p.fits group n
  | none => (p.corners.lookup n.id).getD Point.origin

def positionOf (id : String) : Point α :=
  match p.frames.element? id with
  | some n => p.position n
  | none => Point.origin

/-- The corner of an element on the canvas: the positions of its groups are added to its own one,
from the nearest group on. -/
def corner (n : Node α) : Point α :=
  ((p.frames.ancestors n.id).map p.positionOf).foldl (fun c q => ⟨c.x + q.x, c.y + q.y⟩)
    (p.position n)

def rect (n : Node α) : Rect α := Rect.ofCorner (p.corner n) (p.size n)

def scene : Scene α :=
  let placed := (p.frames.elements.filter (!·.isTool)).map fun n => (n, p.rect n)
  let steps := placed.filter (!·.1.isGroup)
  { rects := placed.map fun (n, r) => (n.id, r)
    groups := (placed.filter (·.1.isGroup)).map (·.2)
    steps := steps.map (·.2)
    free := Rect.enclosing? ((steps.filter fun (n, _) => !p.frames.isGrouped n.id).map (·.2)) }

def placed (tools : List (ToolPlace α)) (n : Node α) : Node α × Box α :=
  if n.isTool then
    let position := ((tools.find? (·.id == n.id)).map (·.position)).getD Point.origin
    ({ n with position := position },
      ⟨n.id, n.kind, none, Rect.ofCorner position p.settings.toolSize⟩)
  else
    let size := p.size n
    let style := if n.isGroup then
        { n.style with
          width := some (.number size.width)
          height := some (.number size.height) }
      else n.style
    ({ n with
        position := p.position n
        style := style },
      ⟨n.id, n.kind, p.frames.parent? n.id, p.rect n⟩)

/-- A node whose id is taken stays where it is, but for the grid. -/
def spare (n : Node α) : Node α × Box α :=
  let position := Grid.snapPoint n.position p.settings.gridSize
  ({ n with position := position },
    ⟨n.id, n.kind, none, Rect.ofCorner position (p.settings.footprint n)⟩)

def tools (edges : List Edge) : List (ToolPlace α) :=
  p.scene.placeTools p.settings p.frames edges

def settle (tools : List (ToolPlace α)) (m : Bool × Node α) : Node α × Box α :=
  if m.1 then p.placed tools m.2 else p.spare m.2

end Plan

namespace Arrangement

def boundsOf (boxes : List (Box α)) : Rect α :=
  (Rect.enclosing? (boxes.map (·.rect))).getD Rect.empty

variable (a : Arrangement α)

def width : α := a.bounds.width

def height : α := a.bounds.height

def box? (id : String) : Option (Box α) := a.boxes.find? (·.id == id)

def groups : List (Box α) := a.boxes.filter (·.kind = .group)

end Arrangement

def Plan.arrangement (p : Plan α) (d : Diagram α) : Arrangement α :=
  let tools := p.tools d.edges
  let placed := d.marked.map (p.settle tools)
  let boxes := placed.map (·.2)
  ⟨placed.map (·.1), boxes, Arrangement.boundsOf boxes⟩

namespace Diagram

/-- The arrangement by the layered engine, whatever engine the settings name. -/
def arrange (d : Diagram α) (s : LayoutSettings α) : Arrangement α :=
  (Plan.ofDiagram s d).arrangement d

def arrangeBy {m : Type → Type} [Monad m] (dagre : Dagre m α) (d : Diagram α)
    (s : LayoutSettings α) : m (Arrangement α) :=
  let f := Frames.build d
  let fits := f.fits s
  (fun centers => (Plan.ofCenters s f fits centers).arrangement d) <$>
    f.centersBy s d.edges (Fits.sizeOf s fits) dagre

theorem arrangeBy_layered {m : Type → Type} [Monad m] [LawfulMonad m] (dagre : Dagre m α)
    (d : Diagram α) {s : LayoutSettings α} (h : s.engine = .layered) :
    d.arrangeBy dagre s = pure (d.arrange s) := by
  rw [arrangeBy, Frames.centersBy, h]
  exact map_pure _ _

def arranged (d : Diagram α) (s : LayoutSettings α) : Diagram α :=
  ⟨(d.arrange s).nodes, d.edges⟩

theorem arrange_nodes_length (d : Diagram α) (s : LayoutSettings α) :
    (d.arrange s).nodes.length = d.nodes.length := by
  have h := congrArg List.length (mark_nodes [] d.nodes)
  simp only [List.length_map] at h
  simp [arrange, Plan.arrangement, marked, h]

theorem arrange_boxes_length (d : Diagram α) (s : LayoutSettings α) :
    (d.arrange s).boxes.length = (d.arrange s).nodes.length := by
  simp [arrange, Plan.arrangement]

theorem arrange_bounds (d : Diagram α) (s : LayoutSettings α) :
    (d.arrange s).bounds = Arrangement.boundsOf (d.arrange s).boxes := rfl

end Diagram

end FlowCanvas
