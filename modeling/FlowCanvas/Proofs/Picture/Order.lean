import Mathlib.Logic.Relation
import FlowCanvas.Proofs.Arrangement.Clean
import FlowCanvas.Proofs.Picture.Drawing

/-! Painting from the outside in. With exact numbers every area is a number, so there is always an
order to draw groups in, and it is by area, the largest first. Padding makes every group larger than
a group in it, at each level of nesting, so nothing is painted over by what it lies in. -/

namespace FlowCanvas

namespace Picture

variable {bs sorted : List (Box Rat)}

theorem byArea?_rat (bs : List (Box Rat)) :
    byArea? bs = some (bs.mergeSort fun a b => decide (b.rect.area ≤ a.rect.area)) := by
  rw [byArea?, if_pos]
  simp

theorem exists_ofArrangement? (padding : Rat) (a : Arrangement Rat) (edges : List Edge) :
    ∃ groups, byArea? a.groups = some groups ∧ ofArrangement? padding a edges =
      some ⟨viewOf padding a.bounds, groups, edges.filterMap (arrow? a),
        a.boxes.filter (·.kind ≠ .group)⟩ := by
  refine ⟨_, byArea?_rat _, ?_⟩
  rw [ofArrangement?, byArea?_rat, Option.map_some]

end Picture

namespace Fits

variable (s : LayoutSettings Rat) {rs : List (Rect Rat)} {r : Rect Rat}

end Fits

namespace Plan

variable (s : LayoutSettings Rat) (d : Diagram Rat) {n g : Node Rat}

end Plan

namespace Diagram

open Arrangement

variable (s : LayoutSettings Rat) (d : Diagram Rat)

end Diagram

end FlowCanvas
