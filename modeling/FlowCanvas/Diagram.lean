import FlowCanvas.Json.Value
import FlowCanvas.Rect
import FlowCanvas.Text.Blank

/-!
Flow diagrams: steps, tools and groups, joined by edges. Ids may repeat; wherever a node is looked
up by its id, the first one counts. What a node or an edge carries besides is kept as it was read.
-/

namespace FlowCanvas

variable {α : Type} [Scalar α]

inductive Direction
  | topDown
  | leftRight
  deriving DecidableEq

inductive NodeKind
  | step
  | tool
  | group
  | other (name : String)
  deriving DecidableEq

inductive EdgeKind
  | route
  | tool
  | other (name : String)
  deriving DecidableEq

inductive Dimension (α : Type)
  | number (x : α)
  | text (s : String)

structure Style (α : Type) where
  width : Option (Dimension α)
  height : Option (Dimension α)
  extra : Extras

structure Node (α : Type) where
  id : String
  kind : NodeKind
  parent : Option String
  position : Point α
  style : Style α
  data : Payload
  extra : Extras

structure Edge where
  id : String
  source : String
  target : String
  kind : EdgeKind
  extra : Extras

structure Diagram (α : Type) where
  nodes : List (Node α)
  edges : List Edge

namespace Direction

def ofToken? : String → Option Direction
  | "TD" => some .topDown
  | "TB" => some .topDown
  | "LR" => some .leftRight
  | _ => none

def token : Direction → String
  | .topDown => "TB"
  | .leftRight => "LR"

theorem ofToken?_token (d : Direction) : ofToken? d.token = some d := by
  cases d <;> simp [ofToken?, token]

end Direction

namespace NodeKind

def ofName : String → NodeKind
  | "step" => .step
  | "tool" => .tool
  | "group" => .group
  | s => .other s

def name : NodeKind → String
  | .step => "step"
  | .tool => "tool"
  | .group => "group"
  | .other s => s

theorem name_ofName (s : String) : (ofName s).name = s := by
  unfold ofName
  split <;> rfl

end NodeKind

namespace EdgeKind

def ofName : String → EdgeKind
  | "route" => .route
  | "tool" => .tool
  | s => .other s

def name : EdgeKind → String
  | .route => "route"
  | .tool => "tool"
  | .other s => s

theorem name_ofName (s : String) : (ofName s).name = s := by
  unfold ofName
  split <;> rfl

end EdgeKind

namespace Dimension

/-- Drops every unit at the end of a text that is given in reverse. -/
def dropUnits : List Char → List Char
  | 'x' :: 'p' :: cs => dropUnits cs
  | cs => cs

/-- The number in a text such as `320px`. -/
def literal? (s : String) : Option Literal :=
  Literal.read? (Blank.trim (dropUnits (Blank.trim s.toList).reverse).reverse)

def value? : Dimension α → Option α
  | .number x => some x
  | .text s => (literal? s).bind Scalar.ofLiteral?

end Dimension

namespace Style

def plain : Style α := ⟨none, none, Extras.none⟩

def isEmpty (s : Style α) : Bool := s.width.isNone && s.height.isNone && s.extra.isEmpty

def positive? (d : Option (Dimension α)) : Option α :=
  (d.bind Dimension.value?).filter fun x => Scalar.zero < x

def width? (s : Style α) : Option α := positive? s.width

def height? (s : Style α) : Option α := positive? s.height

end Style

namespace Node

def new (id : String) (kind : NodeKind) : Node α :=
  ⟨id, kind, none, Point.origin, Style.plain, Payload.null, Extras.none⟩

def isGroup (n : Node α) : Bool := n.kind = .group

def isTool (n : Node α) : Bool := n.kind = .tool

end Node

namespace Edge

def new (source target : String) (kind : EdgeKind) : Edge :=
  ⟨source ++ "-" ++ target, source, target, kind, Extras.none⟩

end Edge

namespace Diagram

def empty : Diagram α := ⟨[], []⟩

def node? (d : Diagram α) (id : String) : Option (Node α) := d.nodes.find? (·.id == id)

def addNode (d : Diagram α) (n : Node α) : Diagram α := { d with nodes := d.nodes ++ [n] }

def ensureNode (d : Diagram α) (id : String) (kind : NodeKind) : Diagram α :=
  if (d.node? id).isSome then d else d.addNode (Node.new id kind)

def addEdge (d : Diagram α) (e : Edge) : Diagram α := { d with edges := d.edges ++ [e] }

def changeFirst (id : String) (f : Node α → Node α) : List (Node α) → List (Node α)
  | [] => []
  | n :: ns => if n.id = id then f n :: ns else n :: changeFirst id f ns

def changeNode (d : Diagram α) (id : String) (f : Node α → Node α) : Diagram α :=
  { d with nodes := changeFirst id f d.nodes }

def setParent (d : Diagram α) (id parent : String) : Diagram α :=
  d.changeNode id fun n => { n with parent := some parent }

def removeNode (d : Diagram α) (id : String) : Diagram α :=
  { d with nodes := d.nodes.filter (·.id != id) }

def mark (seen : List String) : List (Node α) → List (Bool × Node α)
  | [] => []
  | n :: ns => (!seen.contains n.id, n) :: mark (n.id :: seen) ns

def marked (d : Diagram α) : List (Bool × Node α) := mark [] d.nodes

def elements (d : Diagram α) : List (Node α) :=
  d.marked.filterMap fun (first, n) => if first then some n else none

/-- The first id that occurs again, in the order of the later occurrences. -/
def repeated? (d : Diagram α) : Option String :=
  (d.marked.find? fun (first, _) => !first).map fun (_, n) => n.id

theorem ensureNode_node? (d : Diagram α) (id : String) (kind : NodeKind) :
    ((d.ensureNode id kind).node? id).isSome = true := by
  unfold ensureNode
  split
  · assumption
  · simp [addNode, node?, Node.new]

omit [Scalar α] in
theorem mark_nodes (seen : List String) (ns : List (Node α)) :
    (mark seen ns).map (·.2) = ns := by
  induction ns generalizing seen with
  | nil => rfl
  | cons n ns ih => simp [mark, ih]

end Diagram

end FlowCanvas
