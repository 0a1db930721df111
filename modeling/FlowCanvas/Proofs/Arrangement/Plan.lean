import FlowCanvas.Proofs.Fit.Exact
import FlowCanvas.Proofs.Flow.Separation
import FlowCanvas.Proofs.Layer.BackEdge
import FlowCanvas.Proofs.Layer.LongestPath

/-! The plan of a diagram in exact arithmetic. The flow of a plan has its slots in the layers of
their ranks. An element in no group lies in the box of its slot, and an element in a group lies
where its group lies, moved by its position. -/

namespace FlowCanvas

namespace Plan

variable (s : LayoutSettings Rat) (d : Diagram Rat)

theorem position_of_free {n : Node Rat} (h : (Frames.build d).parent? n.id = none) :
    (ofDiagram s d).position n = ((ofDiagram s d).corners.lookup n.id).getD Point.origin := by
  rw [position, ofDiagram_frames, h]

theorem position_of_grouped {n : Node Rat} {p : String}
    (h : (Frames.build d).parent? n.id = some p) :
    (ofDiagram s d).position n = Fits.positionInGroup s (ofDiagram s d).fits p n := by
  rw [position, ofDiagram_frames, h, ofDiagram_settings]

def flowOf : Flow Rat := (Frames.build d).flow s d.edges (ofDiagram s d).size

theorem flowOf_sizes :
    (flowOf s d).sizes = (Frames.build d).layered.map (ofDiagram s d).size := rfl

theorem flowOf_graph : (flowOf s d).graph =
    (LayerGraph.ofEdges (flowOf s d).sizes.length
      ((Frames.build d).slotRoutes d.edges)).withoutBackEdges := rfl

theorem flowOf_ranked : Ranking.Ranked (flowOf s d).graph (flowOf s d).graph.ranks :=
  LayerGraph.ranks_ranked (LayerGraph.withoutBackEdges_acyclic _)

theorem flowOf_ranks_length :
    (flowOf s d).graph.ranks.length = (flowOf s d).sizes.length := by
  rw [(flowOf_ranked s d).length, flowOf_graph, LayerGraph.withoutBackEdges_size,
    LayerGraph.ofEdges_size]

theorem flowOf_partition : Layers.Partition (flowOf s d).layers (flowOf s d).graph.ranks :=
  Layers.ordered_partition _ _ _

theorem rank_of_layered {k : Nat} {n : Node Rat} (h : (Frames.build d).layered[k]? = some n) :
    ∃ i, (flowOf s d).graph.ranks[k]? = some i := by
  have hk : k < (flowOf s d).graph.ranks.length := by
    rw [flowOf_ranks_length, flowOf_sizes, List.length_map]
    exact (List.getElem?_eq_some_iff.mp h).1
  exact ⟨_, List.getElem?_eq_getElem hk⟩

theorem corners_eq : (ofDiagram s d).corners =
    ((Frames.build d).layered.zip ((Frames.build d).layeredIds.zip
      ((flowOf s d).centers s))).map fun q =>
        (q.1.id, Grid.snapPoint (cornerOf q.2.2 ((ofDiagram s d).size q.1)) s.gridSize) := rfl

theorem corners_keys :
    (ofDiagram s d).corners.map (·.1) = (Frames.build d).layered.map (·.id) := by
  have hlen : (Frames.build d).layered.length ≤
      ((Frames.build d).centers s d.edges (ofDiagram s d).size).length := by
    have hids := congrArg List.length
      ((Frames.build d).centers_ids s d.edges (ofDiagram s d).size)
    rw [List.length_map, Frames.layeredIds, List.length_map] at hids
    exact hids.ge
  conv => rhs; rw [← List.map_fst_zip hlen]
  rw [List.map_map]
  exact List.map_map

theorem mem_corners {k : Nat} {n : Node Rat} (h : (Frames.build d).layered[k]? = some n) :
    (n.id, Grid.snapPoint (cornerOf (((flowOf s d).centers s).getD k Point.origin)
      ((ofDiagram s d).size n)) s.gridSize) ∈ (ofDiagram s d).corners := by
  have hk := (List.getElem?_eq_some_iff.mp h).1
  have hlen : k < ((flowOf s d).centers s).length := by
    rw [Flow.centers_length, flowOf_sizes, List.length_map]
    exact hk
  refine List.mem_map.mpr ⟨(n, (n.id, ((flowOf s d).centers s).getD k Point.origin)), ?_, rfl⟩
  refine List.mem_of_getElem? (i := k) ?_
  rw [List.getElem?_zip_eq_some]
  refine ⟨h, ?_⟩
  rw [Frames.centers, List.getElem?_zip_eq_some]
  constructor
  · simp [Frames.layeredIds, h]
  · simp only [List.getD_eq_getElem?_getD, List.getElem?_eq_getElem hlen, Option.getD_some]
    exact List.getElem?_eq_getElem hlen

theorem position_of_layered {k : Nat} {n : Node Rat}
    (h : (Frames.build d).layered[k]? = some n) :
    (ofDiagram s d).position n = Grid.snapPoint
      (cornerOf (((flowOf s d).centers s).getD k Point.origin) ((ofDiagram s d).size n))
      s.gridSize := by
  have hf := Frames.build_wellFormed d
  have hfree := (Frames.mem_layered.mp (List.mem_of_getElem? h)).2.2
  have hkeys : ((ofDiagram s d).corners.map (·.1)).Nodup := by
    rw [corners_keys]
    exact hf.layered_nodup
  have hlookup := lookup_eq_of_mem hkeys (mem_corners s d h)
  rw [position_of_free s d hfree, hlookup, Option.getD_some]

theorem rect_of_layered {k : Nat} {n : Node Rat} (h : (Frames.build d).layered[k]? = some n) :
    (ofDiagram s d).rect n = (flowOf s d).box s k := by
  have hfree := (Frames.mem_layered.mp (List.mem_of_getElem? h)).2.2
  have hsize : (flowOf s d).sizeAt k = (ofDiagram s d).size n := by
    simp [Flow.sizeAt, flowOf_sizes, h]
  have hanc : (ofDiagram s d).frames.ancestors n.id = [] := Frames.ancestors_of_free hfree
  rw [rect, corner, hanc, List.map_nil, List.foldl_nil, position_of_layered s d h, Flow.box,
    Direction.boxAt, hsize]

theorem foldl_add_point (qs : List (Point Rat)) (a b : Point Rat) :
    qs.foldl (fun c q => ⟨c.x + q.x, c.y + q.y⟩) (⟨a.x + b.x, a.y + b.y⟩ : Point Rat) =
      ⟨a.x + (qs.foldl (fun c q => ⟨c.x + q.x, c.y + q.y⟩) b).x,
        a.y + (qs.foldl (fun c q => ⟨c.x + q.x, c.y + q.y⟩) b).y⟩ := by
  induction qs generalizing b with
  | nil => rfl
  | cons q qs ih =>
    rw [List.foldl_cons, List.foldl_cons, ← ih]
    congr 2 <;> ring

theorem corner_of_parent {p : Plan Rat} (hf : p.frames.WellFormed) {n g : Node Rat}
    (hg : g ∈ p.frames.elements) (h : p.frames.parent? n.id = some g.id) :
    p.corner n =
      ⟨(p.position n).x + (p.corner g).x, (p.position n).y + (p.corner g).y⟩ := by
  have hpos : p.positionOf g.id = p.position g := by rw [positionOf, hf.element?_of_mem hg]
  rw [corner, hf.ancestors_of_parent h, List.map_cons, List.foldl_cons, hpos, foldl_add_point]
  rfl

end Plan

end FlowCanvas
