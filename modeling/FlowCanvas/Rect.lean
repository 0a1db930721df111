import FlowCanvas.Scalar

/-!
Points, sizes and axis-parallel rectangles on the canvas. The origin of a rectangle is its top left
corner, `y` grows downward, and two rectangles that only share an edge do not intersect.
-/

namespace FlowCanvas

variable {α : Type} [Scalar α]

structure Point (α : Type) where
  x : α
  y : α
  deriving DecidableEq

structure Size (α : Type) where
  width : α
  height : α
  deriving DecidableEq

structure Rect (α : Type) where
  x : α
  y : α
  width : α
  height : α
  deriving DecidableEq

def Point.origin : Point α := ⟨Scalar.zero, Scalar.zero⟩

def Point.swap (p : Point α) : Point α := ⟨p.y, p.x⟩

def Point.isFinite (p : Point α) : Bool := Scalar.isFinite p.x && Scalar.isFinite p.y

def Size.swap (s : Size α) : Size α := ⟨s.height, s.width⟩

namespace Rect

def empty : Rect α := ⟨Scalar.zero, Scalar.zero, Scalar.zero, Scalar.zero⟩

def ofCorner (p : Point α) (s : Size α) : Rect α := ⟨p.x, p.y, s.width, s.height⟩

def origin (r : Rect α) : Point α := ⟨r.x, r.y⟩

def right (r : Rect α) : α := r.x + r.width

def bottom (r : Rect α) : α := r.y + r.height

def center (r : Rect α) : Point α :=
  ⟨r.x + r.width / Scalar.two, r.y + r.height / Scalar.two⟩

def intersects (r s : Rect α) : Bool :=
  r.x < s.right && s.x < r.right && r.y < s.bottom && s.y < r.bottom

def crowds (r s : Rect α) (margin : α) : Bool :=
  r.x < s.right + margin && s.x < r.right + margin &&
    r.y < s.bottom + margin && s.y < r.bottom + margin

def contains (r s : Rect α) : Bool :=
  r.x ≤ s.x && r.y ≤ s.y && s.right ≤ r.right && s.bottom ≤ r.bottom

def union (r s : Rect α) : Rect α :=
  let x := Scalar.smaller r.x s.x
  let y := Scalar.smaller r.y s.y
  ⟨x, y, Scalar.larger r.right s.right - x, Scalar.larger r.bottom s.bottom - y⟩

def translate (r : Rect α) (dx dy : α) : Rect α := { r with x := r.x + dx, y := r.y + dy }

def enclosing? : List (Rect α) → Option (Rect α)
  | [] => none
  | r :: rs => some (rs.foldl (fun bounds s => s.union bounds) r)

theorem intersects_comm (r s : Rect α) : r.intersects s = s.intersects r := by
  simp only [intersects]
  ac_rfl

theorem crowds_comm (r s : Rect α) (margin : α) : r.crowds s margin = s.crowds r margin := by
  simp only [crowds]
  ac_rfl

theorem enclosing?_eq_none (rs : List (Rect α)) : enclosing? rs = none ↔ rs = [] := by
  cases rs <;> simp [enclosing?]

end Rect

end FlowCanvas
