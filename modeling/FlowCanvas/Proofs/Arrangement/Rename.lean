import Mathlib.Logic.Equiv.Basic
import FlowCanvas.Proofs.Arrangement.Mirror
import FlowCanvas.Proofs.Arrangement.Outcome
import FlowCanvas.Proofs.Frame.Rename

/-! Arrangements of renamed diagrams. Ids are compared with each other and with nothing else, so a
renaming under which no two of them become one changes no position, no size and no bounds. It
carries over to the boxes and to the nodes with what they name as their parents. -/

namespace FlowCanvas

variable {α : Type} {r : String → String}

def Box.rename (r : String → String) (b : Box α) : Box α :=
  { b with
    id := r b.id
    parent := b.parent.map r }

def ToolPlace.rename (r : String → String) (t : ToolPlace α) : ToolPlace α :=
  { t with id := r t.id }

theorem ToolPlace.position_rename (t : ToolPlace α) : (t.rename r).position = t.position := rfl

def Arrangement.rename (r : String → String) (a : Arrangement α) : Arrangement α :=
  { a with
    nodes := a.nodes.map (Node.rename r)
    boxes := a.boxes.map (Box.rename r) }

variable [Scalar α]

namespace Scene

variable (hr : Function.Injective r) (scene : Scene α) (s : LayoutSettings α) (f : Frames α)
  (edges : List Edge)

theorem freeCell?_rename (placed : List (Rect α)) (attempts k : Nat) :
    (scene.rename r).freeCell? s placed attempts k = scene.freeCell? s placed attempts k := by
  induction attempts generalizing k with
  | zero => rfl
  | succ attempts ih => rw [freeCell?, ih, freeCell?]; rfl

theorem settle_rename (placed : List (Rect α)) (t : ToolPlace α) :
    (scene.rename r).settle s placed (t.rename r) = (scene.settle s placed t).rename r := by
  have hsettle : (scene.rename r).settle s placed (t.rename r) =
      scene.settle s placed (t.rename r) := rfl
  rw [hsettle, settle, settle, ToolPlace.rename]
  cases scene.clear s placed (Rect.ofCorner t.position s.toolSize) with
  | true => rfl
  | false =>
    simp only [Bool.false_eq_true, if_false]
    split <;> rfl

theorem settleAll_rename (placed : List (Rect α)) (ts : List (ToolPlace α)) :
    (scene.rename r).settleAll s placed (ts.map (ToolPlace.rename r)) =
      (scene.settleAll s placed ts).map (ToolPlace.rename r) := by
  induction ts generalizing placed with
  | nil => rfl
  | cons t ts ih =>
    rw [List.map_cons, settleAll, settle_rename, ToolPlace.position_rename, ih, settleAll,
      List.map_cons]

include hr

omit [Scalar α] in
theorem anchor?_rename (tool : String) :
    (scene.rename r).anchor? (f.rename r) (edges.map (Edge.rename r)) (r tool) =
      scene.anchor? f edges tool := by
  have hby (e : Edge) : (scene.rename r).anchorBy? (f.rename r) (r tool) (e.rename r) =
      scene.anchorBy? f tool e := by
    have hrect : (scene.rename r).rects.lookup (e.rename r).source =
        scene.rects.lookup e.source := by
      rw [Scene.rename, Edge.rename, lookup_rename hr, Option.map_id_fun, id_eq]
    have hsource : (f.rename r).element? (e.rename r).source =
        (f.element? e.source).map (Node.rename r) := f.element?_rename hr e.source
    have htarget : ((e.rename r).kind = .tool ∧ (e.rename r).target = r tool) =
        (e.kind = .tool ∧ e.target = tool) := congrArg _ (propext hr.eq_iff)
    rw [anchorBy?, anchorBy?, hrect, hsource, Option.bind_map]
    simp only [htarget]
    rfl
  rw [anchor?_eq, anchor?_eq, List.filterMap_map]
  congr 1
  exact List.filterMap_congr fun e _ => hby e

theorem seat_rename (placed : List (Rect α)) (k : Nat) (tool : String) :
    (scene.rename r).seat s (f.rename r) (edges.map (Edge.rename r)) placed k (r tool) =
      Prod.map (ToolPlace.rename r) id (scene.seat s f edges placed k tool) := by
  have hanchored : (scene.rename r).anchored? s (f.rename r) (edges.map (Edge.rename r)) (r tool) =
      scene.anchored? s f edges tool := by
    rw [anchored?, anchor?_rename hr, anchored?]
    rfl
  rw [seat, hanchored, freeCell?_rename, seat]
  cases scene.anchored? s f edges tool with
  | some p => rfl
  | none =>
    obtain ⟨free, next⟩ := scene.freeCell? s placed s.tools.fallbackAttempts k
    cases free <;> rfl

theorem seats_rename (placed : List (Rect α)) (k : Nat) (tools : List String) :
    (scene.rename r).seats s (f.rename r) (edges.map (Edge.rename r)) placed k (tools.map r) =
      (scene.seats s f edges placed k tools).map (ToolPlace.rename r) := by
  induction tools generalizing placed k with
  | nil => rfl
  | cons tool rest ih =>
    simp only [List.map_cons, seats, seat_rename hr, Prod.map, ih, ToolPlace.position_rename, id_eq]

theorem placeTools_rename :
    (scene.rename r).placeTools s (f.rename r) (edges.map (Edge.rename r)) =
      (scene.placeTools s f edges).map (ToolPlace.rename r) := by
  rw [placeTools, Frames.toolIds_rename, seats_rename hr, settleAll_rename, placeTools]

end Scene

namespace Plan

variable (hr : Function.Injective r) (s : LayoutSettings α) (d : Diagram α)

include hr

omit [Scalar α] in
theorem mirrors_rename : Frames.Mirrors r (Node.rename r) (Frames.build d)
    (Frames.build (d.rename r)) := by
  rw [Frames.build_rename hr]
  exact (Frames.build d).mirrors_rename hr

omit [Scalar α] in
theorem slotRoutes_rename :
    (Frames.build (d.rename r)).slotRoutes (d.rename r).edges =
      (Frames.build d).slotRoutes d.edges := by
  rw [Frames.build_rename hr]
  exact (Frames.build d).slotRoutes_rename hr d.edges

theorem toolPlaces_rename :
    toolPlaces s (d.rename r) = (toolPlaces s d).map (ToolPlace.rename r) := by
  rw [toolPlaces, scene_mirrored (mirrors_rename hr d) s (slotRoutes_rename hr d),
    Frames.build_rename hr]
  exact Scene.placeTools_rename hr _ s _ d.edges

theorem placed_rename {n : Node α} (hn : n ∈ d.elements) :
    (ofDiagram s (d.rename r)).placed (toolPlaces s (d.rename r)) (n.rename r) =
      Prod.map (Node.rename r) (Box.rename r) ((ofDiagram s d).placed (toolPlaces s d) n) := by
  cases htool : n.isTool with
  | true =>
    have hfind : ((toolPlaces s (d.rename r)).find? (·.id == r n.id)).map (·.position) =
        ((toolPlaces s d).find? (·.id == n.id)).map (·.position) := by
      have hid : ((fun t : ToolPlace α => t.id == r n.id) ∘ ToolPlace.rename r) =
          fun t => t.id == n.id := funext fun t => beq_rename hr t.id n.id
      rw [toolPlaces_rename hr, List.find?_map, hid, Option.map_map]
      rfl
    have hposition := congrArg (Option.getD · Point.origin) hfind
    rw [placed, placed, Node.isTool_rename, htool]
    simp only [Node.rename, if_true, hposition, ofDiagram_settings]
    rfl
  | false =>
    have hplain : n ∈ (Frames.build d).plain := Frames.mem_plain.mpr ⟨hn, htool⟩
    rw [placed_mirrored (mirrors_rename hr d) s (slotRoutes_rename hr d) hplain, placed, htool]
    rfl

theorem outcome_rename {m : Bool × Node α} (hm : m ∈ d.marked) :
    outcome s (d.rename r) (Prod.map id (Node.rename r) m) =
      Prod.map (Node.rename r) (Box.rename r) (outcome s d m) := by
  obtain ⟨first, n⟩ := m
  cases first with
  | true => exact placed_rename hr s d (Diagram.mem_elements.mpr hm)
  | false =>
    change (ofDiagram s (d.rename r)).spare (n.rename r) =
      Prod.map (Node.rename r) (Box.rename r) ((ofDiagram s d).spare n)
    rw [spare, spare, ofDiagram_settings, ofDiagram_settings]
    rfl

end Plan

namespace Diagram

/-- A renaming under which no two ids become one carries over to the arrangement. -/
theorem arrange_rename (hr : Function.Injective r) (s : LayoutSettings α) (d : Diagram α) :
    (d.rename r).arrange s = (d.arrange s).rename r := by
  have houtcomes : (d.rename r).marked.map (Plan.outcome s (d.rename r)) =
      (d.marked.map (Plan.outcome s d)).map (Prod.map (Node.rename r) (Box.rename r)) := by
    rw [marked_rename hr, List.map_map, List.map_map]
    exact List.map_congr_left fun m hm => Plan.outcome_rename hr s d hm
  rw [arrange_outcome, houtcomes, arrange_outcome, Arrangement.rename]
  simp only [List.map_map, Arrangement.boundsOf]
  rfl

theorem arrange_rename_swapped :
    let s : LayoutSettings Rat := .standard
    let r : String → String := Equiv.swap "a" "t"
    let a : Node Rat := { Node.new "a" .step with parent := some "g" }
    let d : Diagram Rat := ⟨[.new "t" .tool, a, .new "g" .group, .new "b" .step, .new "a" .step],
      [.new "a" "b" .route, .new "a" "t" .tool]⟩
    Function.Injective r ∧ (d.rename r).arrange s = (d.arrange s).rename r ∧
      ((d.rename r).arrange s).boxes.map (fun b => (b.id, b.parent)) =
        [("a", none), ("t", some "g"), ("g", none), ("b", none), ("t", none)] := by
  intro s r a d
  have hr : Function.Injective r := (Equiv.swap "a" "t").injective
  have hrename : (d.rename r).arrange s = (d.arrange s).rename r := arrange_rename hr s d
  refine ⟨hr, hrename, ?_⟩
  rw [hrename]
  decide +kernel

end Diagram

end FlowCanvas
