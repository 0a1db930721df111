import FlowCanvas.Frame
import FlowCanvas.Grid
import FlowCanvas.Settings

/-!
Placing tools. A tool is first put beside its anchor, the step that uses it, or else into the next
cell of a grid to the right of the free steps. Then the tools are gone through once more, and one
that touches a group or crowds a tool before it is nudged aside, or moved beyond everything.
-/

namespace FlowCanvas

variable {α : Type} [Scalar α]

structure Scene (α : Type) where
  rects : List (String × Rect α)
  groups : List (Rect α)
  steps : List (Rect α)
  free : Option (Rect α)

inductive Seat
  | anchor
  | cell
  | nudge
  | beyond
  deriving DecidableEq

structure ToolPlace (α : Type) where
  id : String
  seat : Seat
  position : Point α

namespace Scene

variable (scene : Scene α) (s : LayoutSettings α)

def overGroup (r : Rect α) : Bool := scene.groups.any r.intersects

def overStep (r : Rect α) : Bool := scene.steps.any r.intersects

def blocked (r : Rect α) : Bool := scene.overGroup r || scene.overStep r

def bounds? : Option (Rect α) := Rect.enclosing? (scene.groups ++ scene.steps)

def beyond (placed : List (Rect α)) (y : α) : Point α :=
  let x := match Scalar.greatest? ((scene.bounds?.toList ++ placed).map Rect.right) with
    | some right =>
      if Scalar.isFinite right then Grid.snapUp (right + s.tools.gap) s.gridSize else Scalar.zero
    | none => Scalar.zero
  ⟨x, Grid.snap y s.gridSize⟩

def anchor? (f : Frames α) (edges : List Edge) (tool : String) : Option (Rect α) :=
  (edges.filter fun e => e.kind = .tool && e.target == tool).findSome? fun e =>
    (f.element? e.source).bind fun n =>
      if n.isTool || n.isGroup then none else scene.rects.lookup e.source

def anchorSlots (anchor : Rect α) : List (Point α) :=
  let gap := s.tools.gap
  [⟨anchor.right + gap, anchor.y⟩,
    ⟨anchor.x, anchor.bottom + gap⟩,
    ⟨anchor.x, anchor.y - s.toolHeight - gap⟩,
    ⟨anchor.right + gap * Scalar.two + s.toolWidth, anchor.y⟩].map (Grid.snapPoint · s.gridSize)

def anchored? (f : Frames α) (edges : List Edge) (tool : String) : Option (Point α) :=
  (scene.anchor? f edges tool).bind fun anchor =>
    (anchorSlots s anchor).find? fun p => !scene.overGroup (Rect.ofCorner p s.toolSize)

def fallbackBounds : Rect α := (scene.free.or scene.bounds?).getD Rect.empty

def fallbackOrigin : Point α :=
  let b := scene.fallbackBounds
  ⟨Grid.snapUp (b.right + s.tools.gap) s.gridSize, Grid.snap b.y s.gridSize⟩

def cell (k : Nat) : Point α :=
  let columns := max s.tools.fallbackColumns 1
  let o := scene.fallbackOrigin s
  Grid.snapPoint
    ⟨o.x + Scalar.ofNat (k % columns) * (s.toolWidth + s.tools.separation),
      o.y + Scalar.ofNat (k / columns) * (s.toolHeight + s.tools.separation)⟩ s.gridSize

/-- The first free cell from cell `k` on, of as many as may be tried, and the cell to go on with. -/
def freeCell? (placed : List (Rect α)) : Nat → Nat → Option (Point α) × Nat
  | 0, k => (none, k)
  | attempts + 1, k =>
    let p := scene.cell s k
    let r := Rect.ofCorner p s.toolSize
    if scene.blocked r || placed.any r.intersects then freeCell? placed attempts (k + 1)
    else (some p, k + 1)

def seat (f : Frames α) (edges : List Edge) (placed : List (Rect α)) (k : Nat) (tool : String) :
    ToolPlace α × Nat :=
  match scene.anchored? s f edges tool with
  | some p => (⟨tool, .anchor, p⟩, k)
  | none =>
    match scene.freeCell? s placed s.tools.fallbackAttempts k with
    | (some p, k) => (⟨tool, .cell, p⟩, k)
    | (none, k) => (⟨tool, .beyond, scene.beyond s placed (scene.fallbackOrigin s).y⟩, k)

def seats (f : Frames α) (edges : List Edge) (placed : List (Rect α)) (k : Nat) :
    List String → List (ToolPlace α)
  | [] => []
  | tool :: rest =>
    let (place, k) := scene.seat s f edges placed k tool
    place :: seats f edges (placed ++ [Rect.ofCorner place.position s.toolSize]) k rest

def clear (placed : List (Rect α)) (r : Rect α) : Bool :=
  !scene.overGroup r && !placed.any fun t => r.crowds t s.tools.separation

def nudges (p : Point α) : List (Point α) :=
  let right := s.toolWidth + s.tools.separation
  let below := s.toolHeight + s.tools.separation
  let near : List (Point α) :=
    [⟨p.x + right, p.y⟩, ⟨p.x, p.y + below⟩, ⟨p.x + right, p.y + below⟩]
  let further : List (Point α) := (List.range' 2 (max s.tools.repairAttempts 2 - 1)).map fun k =>
    ⟨p.x, p.y + below * Scalar.ofNat k⟩
  (near ++ further).map (Grid.snapPoint · s.gridSize)

def settle (placed : List (Rect α)) (t : ToolPlace α) : ToolPlace α :=
  if scene.clear s placed (Rect.ofCorner t.position s.toolSize) then t
  else
    let free := (nudges s t.position).find? fun p =>
      let r := Rect.ofCorner p s.toolSize
      scene.clear s placed r && !scene.blocked r
    match free with
    | some p => { t with seat := .nudge, position := p }
    | none => { t with seat := .beyond, position := scene.beyond s placed t.position.y }

def settleAll (placed : List (Rect α)) : List (ToolPlace α) → List (ToolPlace α)
  | [] => []
  | t :: rest =>
    let place := scene.settle s placed t
    place :: settleAll (placed ++ [Rect.ofCorner place.position s.toolSize]) rest

def placeTools (f : Frames α) (edges : List Edge) : List (ToolPlace α) :=
  scene.settleAll s [] (scene.seats s f edges [] 0 (f.tools.map (·.id)))

theorem seat_id (f : Frames α) (edges : List Edge) (placed : List (Rect α)) (k : Nat)
    (tool : String) : (scene.seat s f edges placed k tool).1.id = tool := by
  unfold seat
  split
  · rfl
  · split <;> rfl

theorem seats_ids (f : Frames α) (edges : List Edge) (placed : List (Rect α)) (k : Nat)
    (tools : List String) : (scene.seats s f edges placed k tools).map (·.id) = tools := by
  induction tools generalizing placed k with
  | nil => rfl
  | cons tool rest ih => simp [seats, seat_id, ih]

theorem settle_id (placed : List (Rect α)) (t : ToolPlace α) :
    (scene.settle s placed t).id = t.id := by
  unfold settle
  split
  · rfl
  · dsimp only
    split <;> rfl

theorem settleAll_ids (placed : List (Rect α)) (ts : List (ToolPlace α)) :
    (scene.settleAll s placed ts).map (·.id) = ts.map (·.id) := by
  induction ts generalizing placed with
  | nil => rfl
  | cons t rest ih => simp [settleAll, settle_id, ih]

theorem placeTools_ids (f : Frames α) (edges : List Edge) :
    (scene.placeTools s f edges).map (·.id) = f.tools.map (·.id) := by
  rw [placeTools, settleAll_ids, seats_ids]

end Scene

end FlowCanvas
