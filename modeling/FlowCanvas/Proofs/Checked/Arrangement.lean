import FlowCanvas.Proofs.Checked.Plan
import FlowCanvas.Proofs.Checked.Tool

/-! The arrangement on checked arrays. The stages run one after another, each on the arrays that the
one before has filled; no read, no write, no difference and no loop fails, and what comes out is
the arrangement. -/

namespace FlowCanvas

variable {α : Type} [Scalar α]

namespace Checked

structure Placing (α : Type) where
  positions : List (Point α)
  rects : List (Option (Rect α))

def placeTool? (sizes : List (Size α)) (p : Placing α) (tool : Nat × Point α) :
    Option (Placing α) := do
  let positions ← write? p.positions tool.1 tool.2
  let size ← sizes[tool.1]?
  let rects ← write? p.rects tool.1 (some (Rect.ofCorner tool.2 size))
  some ⟨positions, rects⟩

def parentId? (d : Diagram α) (parents : List (Option Nat)) (i : Nat) : Option (Option String) :=
  match parents[i]?.join with
  | none => some none
  | some p => do
    let g ← d.nodes[p]?
    some (some g.id)

def node? (d : Diagram α) (parents : List (Option Nat)) (sizes : List (Size α))
    (rects : List (Option (Rect α))) (placing : Placing α) (x : (Bool × Node α) × Nat) :
    Option (Node α × Box α) := do
  let position ← placing.positions[x.2]?
  let size ← sizes[x.2]?
  let rect ← rects[x.2]?
  let toolRect ← placing.rects[x.2]?
  let parent ← parentId? d parents x.2
  let n := x.1.2
  let style := if n.isGroup && x.1.1 then
      { n.style with
        width := some (.number size.width)
        height := some (.number size.height) }
    else n.style
  some ({ n with
      position := position
      style := style },
    ⟨n.id, n.kind, parent, (rect.or toolRect).getD (Rect.ofCorner position size)⟩)

/-- The whole arrangement. It has no result if a read or a write is out of range, a difference would
be negative, a loop does not end in its steps, or a layered element has no centre. -/
def arrange? (d : Diagram α) (s : LayoutSettings α) : Option (Arrangement α) := do
  let parents ← parents? d
  let children ← children? parents
  let canvas ← fit? s d parents children
  let layered := layered d parents
  let centers ← layout? s d parents canvas.sizes layered
  let positions ← layered.foldlM (placeCorner? s canvas.sizes centers) canvas.positions
  let rects ← rects? d parents positions canvas.sizes
  let scene ← scene? d parents rects
  let tools ← placeTools? scene s d rects
  let placing ← tools.foldlM (placeTool? canvas.sizes)
    ⟨positions, List.replicate d.nodes.length none⟩
  let placed ← d.marked.zipIdx.mapM (node? d parents canvas.sizes rects placing)
  let boxes := placed.map (·.2)
  some ⟨placed.map (·.1), boxes, Arrangement.boundsOf boxes⟩

end Checked

open Checked

namespace Plan

open Frames Diagram

variable {s : LayoutSettings α} {d : Diagram α} {n : Node α} {m : Bool × Node α} {i : Nat}

theorem rectOf_shows (s : LayoutSettings α) (d : Diagram α) : Shows s d (rectOf s d) :=
  fun _ _ => rfl

def placing (s : LayoutSettings α) (d : Diagram α) (m : Bool × Node α) :
    Point α × Option (Rect α) :=
  if m.1 && m.2.isTool then
    (toolPosition s d m.2, some (Rect.ofCorner (toolPosition s d m.2) s.toolSize))
  else (cell s d m, none)

def arrays (d : Diagram α) (F : Bool × Node α → Point α × Option (Rect α)) : Placing α :=
  ⟨d.marked.map fun m => (F m).1, d.marked.map fun m => (F m).2⟩

omit [Scalar α] in
theorem arrays_congr {F G : Bool × Node α → Point α × Option (Rect α)}
    (h : ∀ m ∈ d.marked, F m = G m) : arrays d F = arrays d G := by
  rw [arrays, arrays]
  congr 1 <;> exact List.map_congr_left fun m hm => by rw [h m hm]

theorem placeTool?_eq (hn : n ∈ (build d).tools)
    (F : Bool × Node α → Point α × Option (Rect α)) (p : Point α) :
    placeTool? (d.marked.map (extentOf s d)) (arrays d F) (d.placeOf n.id, p) =
      some (arrays d (changed F n (p, some (Rect.ofCorner p s.toolSize)))) := by
  obtain ⟨hmem, htool⟩ := List.mem_filter.mp hn
  have hsize : extentOf s d (true, n) = s.toolSize := by
    have hkind : n.kind = .tool := by simpa [Node.isTool] using htool
    rw [extentOf, Fits.size, if_pos rfl, Fits.sizeOf,
      fits_lookup_none s (build_wellFormed d) hmem (isGroup_of_isTool htool)]
    simp [LayoutSettings.footprint, hkind]
  simp only [placeTool?, arrays, cell_write _ hmem, cell_read _ hmem, hsize,
    changed_map F _ Prod.fst, changed_map F _ Prod.snd, Option.bind_eq_bind, Option.bind_some]

theorem tools_written (s : LayoutSettings α) (d : Diagram α) :
    ((build d).tools.map fun n => (d.placeOf n.id, toolPosition s d n)).foldlM
        (placeTool? (d.marked.map (extentOf s d)))
        ⟨d.marked.map (cell s d), List.replicate d.nodes.length none⟩ =
      some (arrays d (placing s d)) := by
  have hstart : (⟨d.marked.map (cell s d), List.replicate d.nodes.length none⟩ : Placing α) =
      arrays d fun m => (cell s d m, none) := by
    rw [arrays, List.map_const', marked_length]
  rw [hstart, List.foldlM_map, cells_changed (arrays d) (fun _ _ => arrays_congr) _
    (fun n _ => (toolPosition s d n, some (Rect.ofCorner (toolPosition s d n) s.toolSize)))
    (fun n (hn : n ∈ (build d).tools) => List.mem_of_mem_filter hn)
    ((build_wellFormed d).nodup.sublist (List.filter_sublist.map _))
    fun n hn F => placeTool?_eq hn F _]
  congr 1
  refine arrays_congr fun m hm => ?_
  obtain ⟨first, n⟩ := m
  cases first with
  | false => rfl
  | true =>
    have hn : n ∈ d.elements := mem_elements.mpr hm
    have hcontains : ((build d).tools.map (·.id)).contains n.id = n.isTool := by
      rw [Bool.eq_iff_iff,
        contains_id (fun k (hk : k ∈ (build d).tools) => List.mem_of_mem_filter hk) hn]
      exact List.mem_filter.trans (and_iff_right hn)
    rw [placing, hcontains]

omit [Scalar α] in
theorem parentId?_eq (h : d.marked[i]? = some m) :
    parentId? d (groupTable d) i = some (if m.1 then (build d).parent? m.2.id else none) := by
  rw [parentId?, link_read h]
  cases m.1 with
  | false => rfl
  | true =>
    cases hparent : (build d).parent? m.2.id with
    | none => simp
    | some p =>
      obtain ⟨g, hg, rfl, -⟩ := (build_wellFormed d).parent?_group hparent
      simp [(isFirst_placeOf hg).1]

theorem node?_eq (h : d.marked[i]? = some m) :
    Checked.node? d (groupTable d) (d.marked.map (extentOf s d)) (d.marked.map (rectOf s d))
        (arrays d (placing s d)) (m, i) =
      some (if m.1 then (ofDiagram s d).placed
          ((ofDiagram s d).scene.placeTools s (build d) d.edges) m.2
        else (ofDiagram s d).spare m.2) := by
  have hread {β : Type} (F : Bool × Node α → β) : (d.marked.map F)[i]? = some (F m) := by
    rw [List.getElem?_map, h, Option.map_some]
  simp only [Checked.node?, arrays, hread, parentId?_eq h, Option.bind_eq_bind, Option.bind_some]
  congr 1
  obtain ⟨first, n⟩ := m
  cases first with
  | false =>
    -- A node that repeats an id has a rectangle or, if it is a tool, none; both lead to the same.
    simp only [placing, cell, extentOf, rectOf, Fits.size, Bool.false_and, Bool.and_false,
      Bool.false_eq_true, if_false]
    cases n.isTool <;> rfl
  | true =>
    have hn : n ∈ d.elements := mem_elements.mpr (List.mem_of_getElem? h)
    simp only [placing, rectOf, placed, Bool.true_and, Bool.and_true, if_true]
    cases htool : n.isTool with
    | true =>
      simp only [isGroup_of_isTool htool, (build_wellFormed d).parent?_of_tool hn htool]
      rfl
    | false =>
      simp only [cell, htool, extentOf, Fits.size]
      rfl

end Plan

namespace Diagram

theorem arrange?_eq (d : Diagram α) (s : LayoutSettings α) :
    arrange? d s = some (d.arrange s) := by
  have hfit : fit? s d (Frames.groupTable d) (Frames.childTable d) =
      some ⟨d.marked.map (Fits.position s (Frames.build d) ((Frames.build d).fits s)),
        d.marked.map (Plan.extentOf s d)⟩ := Frames.fit?_eq s d
  have hplaced := cells_mapM fun i m (h : d.marked[i]? = some m) => Plan.node?_eq (s := s) h
  simp only [arrange?, Frames.parents?_eq, Frames.children?_eq, hfit, Plan.layered_eq,
    Plan.layout?_eq, Plan.corners_written, Plan.rects?_eq, Plan.scene?_eq (Plan.rectOf_shows s d),
    Plan.placeTools?_eq (Plan.rectOf_shows s d), Plan.tools_written, hplaced,
    Option.bind_eq_bind, Option.bind_some]
  rfl

/-- A run with checked arrays, in which reads and writes out of range, negative differences,
divisions by zero, loops that do not end in their steps, orders of different lengths and missing
centres all give nothing, completes on every diagram. The ways up end within as many steps as there
are nodes, and every layered element has a centre. On every graph the search ends and pushes every
slot once, no count of predecessors goes below zero, and every rank has a layer. -/
theorem arrange_checked (d : Diagram α) (s : LayoutSettings α) :
    arrange? d s = some (d.arrange s) ∧
      (∃ parents children canvas centers,
        parents? d = some parents ∧
        (∀ i, ∃ above, climb? parents d.nodes.length i = some above) ∧
        children? parents = some children ∧
        fit? s d parents children = some canvas ∧
        layout? s d parents canvas.sizes (layered d parents) = some centers ∧
        ∀ i ∈ layered d parents, ∃ center, centers.lookup i = some center) ∧
      ∀ g : LayerGraph,
        (∃ t, g.adjacency.search? = some t ∧ t.pushed.Perm (List.range g.size)) ∧
        g.adjacency.withoutBackEdges? = some g.withoutBackEdges.adjacency ∧
        g.adjacency.ranks? = some g.ranks ∧
        layersOfRanks? g.ranks = some (layersOfRanks g.ranks) := by
  refine ⟨arrange?_eq d s, ⟨_, _, _, _, Frames.parents?_eq d, ?_, Frames.children?_eq d,
    Frames.fit?_eq s d, (Plan.layered_eq d).symm ▸ Plan.layout?_eq s d, ?_⟩, fun g => ?_⟩
  · intro i
    cases hi : d.first? i with
    | none => exact ⟨[], Frames.climb?_other hi⟩
    | some n => exact ⟨_, Frames.climb?_frames (first?_eq_some.mp hi)⟩
  · intro i hi
    rw [Plan.layered_eq] at hi
    obtain ⟨n, hn, rfl⟩ := List.mem_map.mp hi
    obtain ⟨center, hcenter, -⟩ := Plan.center_of_layered (s := s) hn
    exact ⟨center, hcenter⟩
  · obtain ⟨t, ht, -, -, hpushed⟩ := g.search?_eq
    exact ⟨⟨t, ht, hpushed⟩, g.withoutBackEdges?_eq, g.ranks?_eq, layersOfRanks?_eq _⟩

end Diagram

end FlowCanvas
