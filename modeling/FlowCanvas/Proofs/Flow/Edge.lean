import FlowCanvas.Flow
import FlowCanvas.Tool

/-! Edges one by one. The routes of a diagram are what its edges add, each on its own, and a tool
hangs off what the first of its edges leads to. So edges that add nothing may come and go. -/

namespace FlowCanvas

variable {α : Type}

def Edge.touches (e : Edge) (id : String) : Bool := e.source == id || e.target == id

theorem Edge.touches_eq_true {e : Edge} {id : String} :
    e.touches id = true ↔ e.source = id ∨ e.target = id := by
  rw [touches, Bool.or_eq_true, beq_iff_eq, beq_iff_eq]

theorem Edge.touches_eq_false {e : Edge} {id : String} :
    e.touches id = false ↔ e.source ≠ id ∧ e.target ≠ id := by
  rw [touches, Bool.or_eq_false_iff, beq_eq_false_iff_ne, beq_eq_false_iff_ne]

theorem filterMap_of_filter_eq {β γ : Type} {used : β → Bool} {g : β → Option γ}
    (hunused : ∀ e, used e = false → g e = none) {xs ys : List β}
    (h : xs.filter used = ys.filter used) : xs.filterMap g = ys.filterMap g := by
  have hused (zs : List β) : zs.filterMap g = (zs.filter used).filterMap g := by
    induction zs with
    | nil => rfl
    | cons e zs ih =>
      cases he : used e with
      | true => simp [he, List.filterMap_cons, ih]
      | false => simp [he, hunused e he, ih]
  rw [hused xs, h, ← hused ys]

namespace Frames

variable (f : Frames α)

def route? (e : Edge) : Option (String × String) :=
  (f.contracted? e).filter fun p =>
    f.layeredIds.contains p.1 && f.layeredIds.contains p.2 && p.1 != p.2

theorem routes_eq (edges : List Edge) :
    f.routes edges = (edges.filterMap f.route?).eraseDups := by
  rw [routes, List.filter_filterMap]
  rfl

theorem routes_of_filter_eq {used : Edge → Bool} {edges edges' : List Edge}
    (hunused : ∀ e, used e = false → f.route? e = none)
    (h : edges'.filter used = edges.filter used) : f.routes edges' = f.routes edges := by
  rw [routes_eq, routes_eq, filterMap_of_filter_eq hunused h]

end Frames

namespace Scene

variable (scene : Scene α) (f : Frames α) (tool : String)

def anchorBy? (e : Edge) : Option (Rect α) :=
  if e.kind = .tool ∧ e.target = tool then
    (f.element? e.source).bind fun n =>
      if n.isTool || n.isGroup then none else scene.rects.lookup e.source
  else none

theorem anchor?_eq (edges : List Edge) :
    scene.anchor? f edges tool = (edges.filterMap (scene.anchorBy? f tool)).head? := by
  have hby : (fun e : Edge => if (e.kind = .tool && e.target == tool) = true then
      (f.element? e.source).bind fun n =>
        if n.isTool || n.isGroup then none else scene.rects.lookup e.source
      else none) = scene.anchorBy? f tool := by
    funext e
    simp only [anchorBy?, Bool.and_eq_true, decide_eq_true_eq, beq_iff_eq]
  rw [anchor?, ← List.head?_filterMap, List.filterMap_filter, hby]

theorem anchor?_of_filter_eq {used : Edge → Bool} {edges edges' : List Edge}
    (hunused : ∀ e, used e = false → scene.anchorBy? f tool e = none)
    (h : edges'.filter used = edges.filter used) :
    scene.anchor? f edges' tool = scene.anchor? f edges tool := by
  rw [anchor?_eq, anchor?_eq, filterMap_of_filter_eq hunused h]

end Scene

end FlowCanvas
