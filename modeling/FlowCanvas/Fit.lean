import FlowCanvas.Frame
import FlowCanvas.Grid
import FlowCanvas.Settings

/-!
Fitting groups. Every group is given the smallest box on the grid that holds its children with
padding, and not less than the least size. Groups are fitted from the innermost ones outward. The
box may start elsewhere than the group did; this offset moves the group one way inside its own
frame and the children the other way, so that all of them stay where they were on the canvas.
-/

namespace FlowCanvas

variable {α : Type} [Scalar α]

/-- The box of a group, and how far its corner moved. A group without children does not move. -/
structure Fit (α : Type) where
  offset : Option (Point α)
  size : Size α

abbrev Fits (α : Type) := List (String × Fit α)

namespace Fits

variable (s : LayoutSettings α) (fits : Fits α)

def offset? (id : String) : Option (Point α) := (fits.lookup id).bind (·.offset)

def sizeOf (n : Node α) : Size α :=
  match fits.lookup n.id with
  | some fit => fit.size
  | none => s.footprint n

/-- Where a grouped element is in its frame, before the frame itself is fitted. -/
def moved (n : Node α) : Point α :=
  let p := Grid.snapPoint n.position s.gridSize
  match offset? fits n.id with
  | some o => ⟨p.x + o.x, p.y + o.y⟩
  | none => p

def positionInGroup (group : String) (n : Node α) : Point α :=
  let p := moved s fits n
  match offset? fits group with
  | some o => ⟨p.x - o.x, p.y - o.y⟩
  | none => p

def leastSize : Size α :=
  ⟨Scalar.larger s.minGroupWidth s.gridSize, Scalar.larger s.minGroupHeight s.gridSize⟩

def around (children : List (Rect α)) : Fit α :=
  let grid := s.gridSize
  let pad := Scalar.larger s.groupPadding Scalar.zero
  let least := leastSize s
  match Rect.enclosing? children with
  | none => ⟨none, ⟨Grid.snapUp least.width grid, Grid.snapUp least.height grid⟩⟩
  | some b =>
    let left := Grid.snapDown (b.x - pad) grid
    let top := Grid.snapDown (b.y - pad) grid
    ⟨some ⟨left, top⟩,
      ⟨Grid.snapUp (Scalar.larger (b.right + pad - left) least.width) grid,
        Grid.snapUp (Scalar.larger (b.bottom + pad - top) least.height) grid⟩⟩

def childRect (n : Node α) : Rect α := Rect.ofCorner (moved s fits n) (sizeOf s fits n)

def fit (f : Frames α) (g : Node α) : Fit α :=
  around s ((f.children g.id).map (childRect s fits))

end Fits

namespace Frames

variable (f : Frames α) (s : LayoutSettings α)

def groupsInward : List (Node α) :=
  (f.elements.filter (·.isGroup)).mergeSort fun a b => f.depth b.id ≤ f.depth a.id

def fits : Fits α :=
  f.groupsInward.foldl (fun fits g => (g.id, Fits.fit s fits f g) :: fits) []

omit [Scalar α] in
theorem mem_groupsInward {n : Node α} :
    n ∈ f.groupsInward ↔ n ∈ f.elements ∧ n.isGroup = true := by
  simp [groupsInward, List.mem_mergeSort]

end Frames

end FlowCanvas
