import FlowCanvas.Fit
import FlowCanvas.Layer.Acyclic
import FlowCanvas.Layer.Order
import FlowCanvas.Layer.Rank

/-!
The flow: where the layered engine puts elements. Routes are contracted onto the outermost groups,
ranked and put into layers. Layers follow each other along the flow; across it, every layer is
packed in its order and then moved as a whole so that its mean is the mean of where its slots would
like to be.
-/

namespace FlowCanvas

variable {α : Type} [Scalar α]

namespace Frames

variable (f : Frames α)

def layeredIds : List String := f.layered.map (·.id)

def contracted? (e : Edge) : Option (String × String) :=
  if e.kind = .route ∧ (f.element? e.source).isSome ∧ (f.element? e.target).isSome then
    some (f.topLevel e.source, f.topLevel e.target)
  else none

def routes (edges : List Edge) : List (String × String) :=
  let ids := f.layeredIds
  ((edges.filterMap f.contracted?).filter fun (a, b) =>
    ids.contains a && ids.contains b && a != b).eraseDups

def slotRoutes (edges : List Edge) : List (Nat × Nat) :=
  let ids := f.layeredIds
  (f.routes edges).filterMap fun (a, b) =>
    (ids.idxOf? a).bind fun i => (ids.idxOf? b).map fun j => (i, j)

omit [Scalar α] in
theorem mem_routes {edges : List Edge} {a b : String} :
    (a, b) ∈ f.routes edges ↔
      (∃ e ∈ edges, f.contracted? e = some (a, b)) ∧
        a ∈ f.layeredIds ∧ b ∈ f.layeredIds ∧ a ≠ b := by
  simp [routes, List.mem_eraseDups, and_assoc]

end Frames

namespace Direction

def along : Direction → Size α → α
  | .topDown, s => s.height
  | .leftRight, s => s.width

def across : Direction → Size α → α
  | .topDown, s => s.width
  | .leftRight, s => s.height

def point : Direction → α → α → Point α
  | .topDown, along, across => ⟨across, along⟩
  | .leftRight, along, across => ⟨along, across⟩

end Direction

/-- A flow has a size for every slot, edges without cycles between them, and its slots in layers. -/
structure Flow (α : Type) where
  sizes : List (Size α)
  graph : LayerGraph
  layers : Layers

namespace Flow

def ofEdges (passes : Nat) (sizes : List (Size α)) (edges : List (Nat × Nat)) : Flow α :=
  let graph := (LayerGraph.ofEdges sizes.length edges).withoutBackEdges
  ⟨sizes, graph, Layers.ordered graph passes (layersOfRanks graph.ranks)⟩

variable (s : LayoutSettings α) (flow : Flow α)

def sizeAt (slot : Nat) : Size α := flow.sizes.getD slot ⟨Scalar.zero, Scalar.zero⟩

def depth (slot : Nat) : α := s.direction.along (flow.sizeAt slot)

def half (slot : Nat) : α := s.direction.across (flow.sizeAt slot) / Scalar.two

def layerDepth (layer : List Nat) : α :=
  (layer.map (flow.depth s)).foldl Scalar.larger Scalar.zero

def bands (start : α) : Layers → List (Nat × α)
  | [] => []
  | layer :: rest =>
    let depth := flow.layerDepth s layer
    layer.map (fun slot => (slot, start + depth / Scalar.two)) ++
      bands (start + (depth + s.rankSpacing)) rest

def desired (neighbors : Nat → List Nat) (placed : List (Nat × α)) (slot : Nat) : α :=
  match (neighbors slot).filterMap (placed.lookup ·) with
  | [] => (placed.lookup slot).getD Scalar.zero
  | centers => Scalar.mean centers

def packAfter (last : Nat) (center : α) : List (Nat × α) → List α
  | [] => []
  | (slot, wish) :: rest =>
    let least := center + flow.half s last + flow.half s slot + s.nodeSpacing
    let here := Scalar.larger wish least
    here :: packAfter slot here rest

def pack : List (Nat × α) → List α
  | [] => []
  | (slot, wish) :: rest => wish :: flow.packAfter s slot wish rest

def placeLayer (placed : List (Nat × α)) (visit : (Nat → List Nat) × List Nat) :
    List (Nat × α) :=
  let (neighbors, layer) := visit
  let wishes := layer.map (desired neighbors placed)
  let packed := flow.pack s (layer.zip wishes)
  let shift := Scalar.mean wishes - Scalar.mean packed
  layer.zip (packed.map (· + shift)) ++ placed

/-- Down the layers against the slots above, then up against the slots below. -/
def visits : List ((Nat → List Nat) × List Nat) :=
  flow.layers.map (fun layer => (flow.graph.predecessors, layer)) ++
    flow.layers.reverse.map (fun layer => (flow.graph.successors, layer))

def settled : List (Nat × α) := (flow.visits ++ flow.visits).foldl (flow.placeLayer s) []

def slots : List Nat := List.range flow.sizes.length

def centerOf (centers : List (Nat × α)) (slot : Nat) : α := (centers.lookup slot).getD Scalar.zero

def toMargin (centers : List (Nat × α)) : α :=
  match Scalar.least? (flow.slots.map fun slot => centerOf centers slot - flow.half s slot) with
  | some x => if Scalar.isFinite x then s.margin - x else Scalar.zero
  | none => Scalar.zero

def centers : List (Point α) :=
  let along := flow.bands s s.margin flow.layers
  let across := flow.settled s
  let shift := flow.toMargin s across
  flow.slots.map fun slot =>
    s.direction.point (centerOf along slot) (centerOf across slot + shift)

omit [Scalar α] in
theorem mem_visits_layer {visit : (Nat → List Nat) × List Nat} (h : visit ∈ flow.visits) :
    visit.2 ∈ flow.layers := by
  simp only [visits, List.mem_append, List.mem_map, List.mem_reverse] at h
  rcases h with ⟨l, hl, rfl⟩ | ⟨l, hl, rfl⟩ <;> exact hl

theorem centers_length : (flow.centers s).length = flow.sizes.length := by
  simp [centers, slots]

theorem packAfter_length (last : Nat) (center : α) (wishes : List (Nat × α)) :
    (flow.packAfter s last center wishes).length = wishes.length := by
  induction wishes generalizing last center with
  | nil => rfl
  | cons w ws ih => simp [packAfter, ih]

theorem pack_length (wishes : List (Nat × α)) :
    (flow.pack s wishes).length = wishes.length := by
  cases wishes with
  | nil => rfl
  | cons w ws => simp [pack, packAfter_length]

end Flow

namespace Frames

variable (f : Frames α) (s : LayoutSettings α)

def flow (edges : List Edge) (size : Node α → Size α) : Flow α :=
  Flow.ofEdges s.orderPasses (f.layered.map size) (f.slotRoutes edges)

/-- The centres by the layered engine. -/
def centers (edges : List Edge) (size : Node α → Size α) : List (String × Point α) :=
  f.layeredIds.zip ((f.flow s edges size).centers s)

theorem centers_ids (edges : List Edge) (size : Node α → Size α) :
    (f.centers s edges size).map (·.1) = f.layeredIds := by
  apply List.map_fst_zip
  simp [layeredIds, flow, Flow.ofEdges, Flow.centers_length]

end Frames

end FlowCanvas
