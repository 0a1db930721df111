import Mathlib.Data.List.Permutation
import FlowCanvas.Proofs.Arrangement.Route
import FlowCanvas.Proofs.Flow.Margin
import FlowCanvas.Proofs.Layer.Height

/-! The spacing of layered elements. Around the centers that the flow gives them, elements keep the
full spacing of the nodes across the flow if they share a rank, and that of the ranks along it if
they do not; on the grid they keep it but for one step. On either axis the first of them starts at
the margin. -/

namespace FlowCanvas.Diagram

variable (s : LayoutSettings Rat) (d : Diagram Rat)

def loose? (n : Node Rat) : Option (Rect Rat) :=
  (((Frames.build d).centers s d.edges (Plan.ofDiagram s d).size).lookup n.id).map fun center =>
    Rect.ofCenter center ((Plan.ofDiagram s d).size n)

def starts (dir : Direction) : Set Rat :=
  {x | ∃ n ∈ (Frames.build d).layered, ∃ b, (d.arrange s).box? n.id = some b ∧ dir.start b.rect = x}

variable {n m : Node Rat} {k : Nat}

theorem slot_of_layered (h : (Frames.build d).layered[k]? = some n) :
    (Frames.build d).layeredIds[k]? = some n.id := by
  rw [Frames.layeredIds, List.getElem?_map, h, Option.map_some]

theorem slot_lt_sizes (h : (Frames.build d).layered[k]? = some n) :
    k < (Plan.flowOf s d).sizes.length := by
  rw [Plan.flowOf_sizes, List.length_map]
  exact (List.getElem?_eq_some_iff.mp h).1

theorem centers_eq : (Frames.build d).centers s d.edges (Plan.ofDiagram s d).size =
    (Frames.build d).layeredIds.zip ((Plan.flowOf s d).centers s) := rfl

theorem loose?_of_slot (h : (Frames.build d).layered[k]? = some n) :
    loose? s d n = some ((Plan.flowOf s d).loose s k) := by
  have hlt : k < ((Plan.flowOf s d).centers s).length := by
    rw [Flow.centers_length]
    exact slot_lt_sizes s d h
  have hkeys : (((Frames.build d).centers s d.edges (Plan.ofDiagram s d).size).map
      (·.1)).Nodup := by
    rw [Frames.centers_ids]
    exact (Frames.build_wellFormed d).layered_nodup
  have hcenter : (n.id, ((Plan.flowOf s d).centers s).getD k Point.origin) ∈
      (Frames.build d).centers s d.edges (Plan.ofDiagram s d).size := by
    refine List.mem_of_getElem? (i := k) ?_
    rw [centers_eq, List.getElem?_zip_eq_some, List.getD_eq_getElem _ _ hlt]
    exact ⟨slot_of_layered d h, List.getElem?_eq_getElem hlt⟩
  have hsize : (Plan.flowOf s d).sizeAt k = (Plan.ofDiagram s d).size n := by
    simp [Flow.sizeAt, Plan.flowOf_sizes, h]
  rw [loose?, lookup_eq_of_mem hkeys hcenter, Option.map_some, Flow.loose, hsize]

theorem starts_eq (dir : Direction) : starts s d dir = (Plan.flowOf s d).boxStarts s dir := by
  ext x
  constructor
  · rintro ⟨n, hn, b, hb, rfl⟩
    obtain ⟨k, hk⟩ := List.mem_iff_getElem?.mp hn
    obtain ⟨c, hc, hrect⟩ := box?_of_slot s d (slot_of_layered d hk)
    obtain rfl : c = b := Option.some.inj (hc.symm.trans hb)
    exact ⟨k, slot_lt_sizes s d hk, by rw [hrect]⟩
  · rintro ⟨k, hk, rfl⟩
    rw [Plan.flowOf_sizes, List.length_map] at hk
    have hslot := List.getElem?_eq_getElem hk
    obtain ⟨b, hb, hrect⟩ := box?_of_slot s d (slot_of_layered d hslot)
    exact ⟨_, List.mem_of_getElem? hslot, b, hb, by rw [hrect]⟩

section Sized

variable (hgrid : 0 < s.gridSize) (hwidth : 0 ≤ s.stepWidth) (hheight : 0 ≤ s.stepHeight)

include hgrid hwidth hheight

theorem starts_margin (hrank : 0 ≤ s.rankSpacing) (hsome : (Frames.build d).layered ≠ [])
    (dir : Direction) : IsLeast (starts s d dir) (Grid.snap s.margin s.gridSize) := by
  obtain ⟨n, hn⟩ := List.exists_mem_of_ne_nil _ hsome
  obtain ⟨k, hk⟩ := List.mem_iff_getElem?.mp hn
  have hlen := Plan.flowOf_ranks_length s d
  have hranked := Plan.flowOf_ranked s d
  have hslot : k < (Plan.flowOf s d).graph.size := by
    rw [← hranked.length, hlen]
    exact slot_lt_sizes s d hk
  obtain ⟨first, hlt, hzero⟩ := hranked.exists_rank hslot (Nat.zero_le _)
  have hfirst : (Plan.flowOf s d).graph.ranks[first]? = some 0 := by
    rw [← hranked.length] at hlt
    rw [Layers.getElem?_rank hlt, hzero]
  have hdepth := fun slot => (Plan.sizeAt_nonneg s d hgrid hwidth hheight slot).1
  rw [starts_eq]
  exact Flow.boxStarts_margin s (Plan.flowOf_partition s d) hlen hrank hdepth hfirst dir

/-- Layered elements keep the spacing of their ranks or of the nodes of one rank, and on the grid
they keep it but for one step. -/
theorem layered_spaced (hnode : 0 ≤ s.nodeSpacing) (hrank : 0 ≤ s.rankSpacing)
    (hn : n ∈ (Frames.build d).layered) (hm : m ∈ (Frames.build d).layered) (hnm : n ≠ m) :
    ∃ r t b c, loose? s d n = some r ∧ loose? s d m = some t ∧
      (d.arrange s).box? n.id = some b ∧ (d.arrange s).box? m.id = some c ∧
      b.rect = r.snapped s.gridSize ∧ c.rect = t.snapped s.gridSize ∧
      (rank s d n.id = rank s d m.id →
        (s.direction.crosswise.Gap s.nodeSpacing r t ∧
            s.direction.crosswise.Gap (s.nodeSpacing - s.gridSize) b.rect c.rect) ∨
          (s.direction.crosswise.Gap s.nodeSpacing t r ∧
            s.direction.crosswise.Gap (s.nodeSpacing - s.gridSize) c.rect b.rect)) ∧
      (rank s d n.id < rank s d m.id →
        s.direction.Gap s.rankSpacing r t ∧
          s.direction.Gap (s.rankSpacing - s.gridSize) b.rect c.rect) := by
  obtain ⟨k, hk⟩ := List.mem_iff_getElem?.mp hn
  obtain ⟨l, hl⟩ := List.mem_iff_getElem?.mp hm
  have hkl : k ≠ l := by
    rintro rfl
    exact hnm (Option.some.inj (hk.symm.trans hl))
  obtain ⟨b, hb, hbrect⟩ := box?_of_slot s d (slot_of_layered d hk)
  obtain ⟨c, hc, hcrect⟩ := box?_of_slot s d (slot_of_layered d hl)
  obtain ⟨i, hi⟩ := Plan.rank_of_layered s d hk
  obtain ⟨j, hj⟩ := Plan.rank_of_layered s d hl
  have hranki : rank s d n.id = i := by
    rw [rank_of_slot s d (slot_of_layered d hk), List.getD_eq_getElem?_getD, hi, Option.getD_some]
  have hrankj : rank s d m.id = j := by
    rw [rank_of_slot s d (slot_of_layered d hl), List.getD_eq_getElem?_getD, hj, Option.getD_some]
  have hpart := Plan.flowOf_partition s d
  have hlen := Plan.flowOf_ranks_length s d
  rw [Flow.box_eq] at hbrect hcrect
  refine ⟨_, _, b, c, loose?_of_slot s d hk, loose?_of_slot s d hl, hb, hc, hbrect, hcrect, ?_, ?_⟩
  · rw [hranki, hrankj, hbrect, hcrect]
    rintro rfl
    have hhalf := Plan.half_nonneg s d hgrid hwidth hheight
    rcases Flow.loose_gap_of_rank_eq s hpart hlen hnode hhalf hi hj hkl with hgap | hgap
    · exact Or.inl ⟨hgap, hgap.snapped hgrid⟩
    · exact Or.inr ⟨hgap, hgap.snapped hgrid⟩
  · rw [hranki, hrankj, hbrect, hcrect]
    intro hij
    have hgap := Flow.loose_gap_of_rank_lt s hpart hlen hrank hi hj hij
    exact ⟨hgap, hgap.snapped hgrid⟩

end Sized

theorem layered_spaced_standard :
    let s : LayoutSettings Rat := .standard
    let d : Diagram Rat :=
      ⟨[.new "a" .step, .new "b" .step, .new "c" .step], [.new "a" "b" .route]⟩
    rank s d "a" < rank s d "b" ∧ rank s d "a" = rank s d "c" ∧
      (∃ b c, (d.arrange s).box? "a" = some b ∧ (d.arrange s).box? "b" = some c ∧
        Direction.topDown.Gap 80 b.rect c.rect) ∧
      ∃ b c, (d.arrange s).box? "a" = some b ∧ (d.arrange s).box? "c" = some c ∧
        (Direction.leftRight.Gap 60 b.rect c.rect ∨ Direction.leftRight.Gap 60 c.rect b.rect) := by
  intro s d
  have hgrid : 0 < s.gridSize := by decide +kernel
  have hwidth : 0 ≤ s.stepWidth := by decide +kernel
  have hheight : 0 ≤ s.stepHeight := by decide +kernel
  have hnode : 0 ≤ s.nodeSpacing := by decide +kernel
  have hrank : 0 ≤ s.rankSpacing := by decide +kernel
  have hids : (Frames.build d).layeredIds = ["a", "b", "c"] := by decide +kernel
  have hroutes : (Frames.build d).slotRoutes d.edges = [(0, 1)] := by decide +kernel
  have hranks : (Plan.flowOf s d).graph.ranks = [0, 1, 0] := by
    rw [Plan.flowOf_graph, hroutes]
    change (LayerGraph.ofEdges 3 [(0, 1)]).withoutBackEdges.ranks = [0, 1, 0]
    cbv
  have hlt : rank s d "a" < rank s d "b" := by
    rw [rank, rank, hids, hranks]
    decide
  have heq : rank s d "a" = rank s d "c" := by
    rw [rank, rank, hids, hranks]
    decide
  have hlayered : (Frames.build d).layered = d.nodes := by rfl
  have hmem : ∀ id ∈ ["a", "b", "c"], .new id .step ∈ (Frames.build d).layered := by
    simp [hlayered, d]
  have hne {x y : String} (h : x ≠ y) : (.new x .step : Node Rat) ≠ .new y .step :=
    fun he => h (congrArg Node.id he)
  have hspaced {x y : String} (hx : x ∈ ["a", "b", "c"]) (hy : y ∈ ["a", "b", "c"]) (h : x ≠ y) :=
    layered_spaced s d hgrid hwidth hheight hnode hrank (hmem x hx) (hmem y hy) (hne h)
  refine ⟨hlt, heq, ?_, ?_⟩
  · obtain ⟨_, _, b, c, -, -, hb, hc, -, -, -, hgap⟩ :=
      hspaced (x := "a") (y := "b") (by simp) (by simp) (by decide)
    have heighty : s.rankSpacing - s.gridSize = 80 := by decide +kernel
    have h := (hgap hlt).2
    rw [heighty] at h
    exact ⟨b, c, hb, hc, h⟩
  · obtain ⟨_, _, b, c, -, -, hb, hc, -, -, hgap, -⟩ :=
      hspaced (x := "a") (y := "c") (by simp) (by simp) (by decide)
    have hsixty : s.nodeSpacing - s.gridSize = 60 := by decide +kernel
    have h := hgap heq
    rw [hsixty] at h
    exact ⟨b, c, hb, hc, h.imp And.right And.right⟩

/-- The leftmost and the topmost layered element start where the margin snaps to. -/
theorem layered_at_margin (hgrid : 0 < s.gridSize) (hwidth : 0 ≤ s.stepWidth)
    (hheight : 0 ≤ s.stepHeight) (hrank : 0 ≤ s.rankSpacing)
    (hsome : (Frames.build d).layered ≠ []) :
    IsLeast {x | ∃ n ∈ (Frames.build d).layered, ∃ b,
        (d.arrange s).box? n.id = some b ∧ b.rect.x = x} (Grid.snap s.margin s.gridSize) ∧
      IsLeast {y | ∃ n ∈ (Frames.build d).layered, ∃ b,
        (d.arrange s).box? n.id = some b ∧ b.rect.y = y} (Grid.snap s.margin s.gridSize) := by
  have hstarts := starts_margin s d hgrid hwidth hheight hrank hsome
  exact ⟨hstarts .leftRight, hstarts .topDown⟩

theorem layered_at_margin_standard :
    let s : LayoutSettings Rat := { LayoutSettings.standard with direction := .leftRight }
    let d : Diagram Rat :=
      ⟨[.new "a" .step, .new "g" .group, .new "b" .step],
        [.new "a" "g" .route, .new "g" "b" .route]⟩
    IsLeast {x | ∃ n ∈ (Frames.build d).layered, ∃ b,
        (d.arrange s).box? n.id = some b ∧ b.rect.x = x} 20 ∧
      IsLeast {y | ∃ n ∈ (Frames.build d).layered, ∃ b,
        (d.arrange s).box? n.id = some b ∧ b.rect.y = y} 20 := by
  intro s d
  have hgrid : 0 < s.gridSize := by decide +kernel
  have hwidth : 0 ≤ s.stepWidth := by decide +kernel
  have hheight : 0 ≤ s.stepHeight := by decide +kernel
  have hrank : 0 ≤ s.rankSpacing := by decide +kernel
  have hsome : (Frames.build d).layered ≠ [] := by
    have hlayered : (Frames.build d).layered = d.nodes := by rfl
    simp [hlayered, d]
  have hsnap : Grid.snap s.margin s.gridSize = 20 := by decide +kernel
  have hmargin := layered_at_margin s d hgrid hwidth hheight hrank hsome
  rw [hsnap] at hmargin
  exact hmargin

end FlowCanvas.Diagram
