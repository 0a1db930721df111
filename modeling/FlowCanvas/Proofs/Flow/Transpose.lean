import FlowCanvas.Flow
import FlowCanvas.Proofs.Exact.Rect

/-! Flows turned on their side. A flow from left to right is a flow from the top down in which all
sizes, and in the end all centers, have their coordinates exchanged: on its way to the centers only
the depth and the half extent of a slot are read. No law of arithmetic takes part in this, so it
holds of scalars of every kind, rounded or exact. -/

namespace FlowCanvas

variable {α : Type} [Scalar α]

def LayoutSettings.turned (s : LayoutSettings α) : LayoutSettings α :=
  { s with direction := s.direction.crosswise }

omit [Scalar α] in
@[simp] theorem Size.swap_swap (p : Size α) : p.swap.swap = p := rfl

namespace Direction

omit [Scalar α] in
theorem along_crosswise (dir : Direction) (p : Size α) :
    dir.crosswise.along p.swap = dir.along p := by
  cases dir <;> rfl

omit [Scalar α] in
theorem across_crosswise (dir : Direction) (p : Size α) :
    dir.crosswise.across p.swap = dir.across p := by
  cases dir <;> rfl

omit [Scalar α] in
theorem point_crosswise (dir : Direction) (a c : α) :
    dir.crosswise.point a c = (dir.point a c).swap := by
  cases dir <;> rfl

end Direction

namespace Flow

def turned (flow : Flow α) : Flow α := { flow with sizes := flow.sizes.map Size.swap }

variable (s : LayoutSettings α) (flow : Flow α)

theorem turned_sizeAt (slot : Nat) : flow.turned.sizeAt slot = (flow.sizeAt slot).swap := by
  rw [sizeAt, turned, sizeAt, List.getD_eq_getElem?_getD, List.getD_eq_getElem?_getD,
    List.getElem?_map]
  cases flow.sizes[slot]? <;> rfl

theorem turned_depth : flow.turned.depth s.turned = flow.depth s := by
  funext slot
  rw [depth, turned_sizeAt, LayoutSettings.turned, Direction.along_crosswise, depth]

theorem turned_half : flow.turned.half s.turned = flow.half s := by
  funext slot
  rw [half, turned_sizeAt, LayoutSettings.turned, Direction.across_crosswise, half]

theorem turned_bands (start : α) (layers : Layers) :
    flow.turned.bands s.turned start layers = flow.bands s start layers := by
  induction layers generalizing start with
  | nil => rfl
  | cons layer rest ih =>
    simp only [bands, layerDepth, turned_depth, ih]
    rfl

theorem turned_packAfter (last : Nat) (center : α) (wishes : List (Nat × α)) :
    flow.turned.packAfter s.turned last center wishes = flow.packAfter s last center wishes := by
  induction wishes generalizing last center with
  | nil => rfl
  | cons w rest ih =>
    simp only [packAfter, turned_half, ih]
    rfl

theorem turned_pack (wishes : List (Nat × α)) :
    flow.turned.pack s.turned wishes = flow.pack s wishes := by
  cases wishes with
  | nil => rfl
  | cons w rest => simp only [pack, turned_packAfter]

theorem turned_placeLayer : flow.turned.placeLayer s.turned = flow.placeLayer s := by
  funext placed visit
  simp only [placeLayer, turned_pack]

theorem turned_settled : flow.turned.settled s.turned = flow.settled s := by
  rw [settled, turned_placeLayer]
  rfl

omit [Scalar α] in
theorem turned_slots : flow.turned.slots = flow.slots := by
  rw [slots, turned, List.length_map, slots]

theorem turned_toMargin (centers : List (Nat × α)) :
    flow.turned.toMargin s.turned centers = flow.toMargin s centers := by
  rw [toMargin, turned_slots, turned_half]
  rfl

theorem turned_centers : flow.turned.centers s.turned = (flow.centers s).map Point.swap := by
  have hbands : flow.turned.bands s.turned s.turned.margin flow.turned.layers =
      flow.bands s s.margin flow.layers := turned_bands s flow s.margin flow.layers
  simp only [centers, hbands, turned_settled, turned_toMargin, turned_slots, List.map_map]
  exact List.map_congr_left fun slot _ => s.direction.point_crosswise _ _

omit [Scalar α] in
theorem turned_ofEdges (passes : Nat) (sizes : List (Size α)) (edges : List (Nat × Nat)) :
    (ofEdges passes sizes edges).turned = ofEdges passes (sizes.map Size.swap) edges := by
  simp only [ofEdges, turned, List.length_map]

theorem ofEdges_centers_turned (sizes : List (Size α)) (edges : List (Nat × Nat)) :
    (ofEdges s.orderPasses sizes edges).centers s.turned =
      ((ofEdges s.orderPasses (sizes.map Size.swap) edges).centers s).map Point.swap := by
  have hsizes : (sizes.map Size.swap).map Size.swap = sizes := by
    simp [Function.comp_def]
  rw [← turned_centers, turned_ofEdges, hsizes]

end Flow

/-- From left to right every layered element has a centre, and so it has from the top down, where
its size is exchanged and the centre is the same with its coordinates exchanged. So it is for the
elements of any frames, and for slots with any sizes and edges. -/
theorem Frames.centers_transpose (s : LayoutSettings α) :
    let across : LayoutSettings α := { s with direction := .leftRight }
    let down : LayoutSettings α := { s with direction := .topDown }
    (∀ (f : Frames α) (edges : List Edge) (size : Node α → Size α),
      (f.centers across edges size).map (·.1) = f.layeredIds ∧
        (f.centers down edges fun n => (size n).swap).map (·.1) = f.layeredIds ∧
        f.centers across edges size =
          (f.centers down edges fun n => (size n).swap).map (Prod.map id Point.swap)) ∧
      ∀ (sizes : List (Size α)) (edges : List (Nat × Nat)),
        ((Flow.ofEdges s.orderPasses sizes edges).centers across).length = sizes.length ∧
          (Flow.ofEdges s.orderPasses sizes edges).centers across =
            ((Flow.ofEdges s.orderPasses (sizes.map Size.swap) edges).centers down).map
              Point.swap := by
  intro across down
  have hflow (sizes : List (Size α)) (edges : List (Nat × Nat)) :
      (Flow.ofEdges s.orderPasses sizes edges).centers across =
        ((Flow.ofEdges s.orderPasses (sizes.map Size.swap) edges).centers down).map
          Point.swap := Flow.ofEdges_centers_turned down sizes edges
  refine ⟨fun f edges size => ⟨f.centers_ids _ edges size, f.centers_ids _ edges _, ?_⟩,
    fun sizes edges => ⟨Flow.centers_length _ _, hflow sizes edges⟩⟩
  have hsizes : f.layered.map (fun n => (size n).swap) =
      (f.layered.map size).map Size.swap := by
    rw [List.map_map]
    rfl
  rw [centers, centers, flow, flow, hsizes, ← List.zip_map_right]
  exact congrArg _ (hflow _ _)

end FlowCanvas
