import FlowCanvas.Rect

/-!
The grid of the canvas. A coordinate snaps to the nearest multiple of the grid, or to the next one
above or below it; a grid that is not positive leaves it alone.
-/

namespace FlowCanvas.Grid

variable {α : Type} [Scalar α]

def unsigned (x : α) : α := if x == Scalar.zero then Scalar.zero else x

def toMultiple (whole : α → α) (x grid : α) : α :=
  if grid ≤ Scalar.zero then x else unsigned (whole (x / grid) * grid)

def snap (x grid : α) : α := toMultiple Scalar.round x grid

def snapUp (x grid : α) : α := toMultiple Scalar.ceil x grid

def snapDown (x grid : α) : α := toMultiple Scalar.floor x grid

def snapPoint (p : Point α) (grid : α) : Point α := ⟨snap p.x grid, snap p.y grid⟩

def isOn (x grid : α) : Bool :=
  grid ≤ Scalar.zero ||
    (let steps := x / grid
     Scalar.abs (steps - Scalar.round steps) < Scalar.ofNat 1 / Scalar.ofNat 1000)

theorem snap_of_not_pos {x grid : α} (h : grid ≤ Scalar.zero) : snap x grid = x := by
  simp [snap, toMultiple, h]

end FlowCanvas.Grid
