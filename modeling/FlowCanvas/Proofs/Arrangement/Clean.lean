import FlowCanvas.Arrangement.Finding
import FlowCanvas.Proofs.Arrangement.Box

/-! Arrangements are clean. If no id repeats, every node is an element, so each finding is ruled out
by what the plan gives: positions on the grid, layered boxes apart from each other, children inside
their groups, groups of at least the least size, and tools off the groups. -/

namespace FlowCanvas

theorem Arrangement.overlaps_nil {bs : List (Box Rat)} :
    overlaps bs = [] ↔ bs.Pairwise fun b c => b.rect.intersects c.rect = false := by
  induction bs with
  | nil => simp [overlaps]
  | cons b bs ih => simp [overlaps, ih, List.filter_eq_nil_iff]

namespace Plan

variable (s : LayoutSettings Rat) (d : Diagram Rat)

section Layered

variable (hgrid : 0 < s.gridSize) (hwidth : 0 ≤ s.stepWidth) (hheight : 0 ≤ s.stepHeight)

include hgrid hwidth hheight

theorem layered_apart (hnode : s.gridSize ≤ s.nodeSpacing) (hrank : s.gridSize ≤ s.rankSpacing)
    {k l : Nat} {n m : Node Rat} (hk : (Frames.build d).layered[k]? = some n)
    (hl : (Frames.build d).layered[l]? = some m) (hkl : k ≠ l) :
    ((ofDiagram s d).rect n).intersects ((ofDiagram s d).rect m) = false := by
  obtain ⟨i, hi⟩ := rank_of_layered s d hk
  obtain ⟨j, hj⟩ := rank_of_layered s d hl
  have hp := flowOf_partition s d
  have hlen := flowOf_ranks_length s d
  rw [rect_of_layered s d hk, rect_of_layered s d hl]
  rcases Nat.lt_trichotomy i j with hij | rfl | hij
  · exact (Flow.box_precedes_of_rank_lt s hgrid hp hlen hrank hi hj hij).not_intersects
  · have hhalf := half_nonneg s d hgrid hwidth hheight
    rcases Flow.box_precedes_of_rank_eq s hgrid hp hlen hnode hhalf hi hj hkl with hprec | hprec
    · exact hprec.not_intersects
    · exact hprec.not_intersects'
  · exact (Flow.box_precedes_of_rank_lt s hgrid hp hlen hrank hj hi hij).not_intersects'

end Layered

end Plan

namespace Diagram

open Arrangement

variable (s : LayoutSettings Rat) (d : Diagram Rat)

theorem outcome_position_onGrid (hgrid : 0 < s.gridSize) {n : Node Rat} (hn : n ∈ d.elements) :
    (Plan.outcome s d (true, n)).1.position.OnGrid s.gridSize := by
  cases htool : n.isTool with
  | true =>
    obtain ⟨t, ht, hid⟩ := toolPlace_of_element s d hn htool
    rw [outcome_of_tool s d htool ht hid]
    exact (Plan.ofDiagram s d).scene.placeTools_onGrid s hgrid (Frames.build d) d.edges t ht
  | false =>
    simp only [Plan.outcome, Plan.settle, Plan.placed, if_true, htool]
    exact Plan.position_onGrid s d hgrid hn

theorem arrange_offGrid (hgrid : 0 < s.gridSize) : offGrid s (d.arrange s) = [] := by
  simp only [offGrid, List.map_eq_nil_iff, List.filter_eq_nil_iff]
  intro m hm
  rw [nodes_outcome, List.mem_map] at hm
  obtain ⟨⟨first, n⟩, hn, rfl⟩ := hm
  have hpos : (Plan.outcome s d (first, n)).1.position.OnGrid s.gridSize := by
    cases first with
    | true => exact outcome_position_onGrid s d hgrid (mem_elements.mpr hn)
    | false => exact Grid.snapPoint_onGrid hgrid n.position
  simp [isOnGrid, Grid.isOn_of_onGrid hgrid hpos.1, Grid.isOn_of_onGrid hgrid hpos.2]

theorem arrange_isOf : (d.arrange s).isOf d = true := by
  have hids : (d.arrange s).nodes.map (·.id) = d.nodes.map (·.id) := by
    rw [nodes_outcome, ← marked_nodes, List.map_map, List.map_map]
    exact List.map_congr_left fun m _ => Plan.settle_node_id _ _ m
  simp only [isOf, hids, arrange_boxes_length, BEq.rfl, Bool.and_self]

section Distinct

variable (hids : (d.nodes.map (·.id)).Nodup)

include hids

theorem boxes_of_nodup :
    (d.arrange s).boxes = d.elements.map fun n => (Plan.outcome s d (true, n)).2 := by
  rw [boxes_outcome, marked_of_nodup hids, elements_of_nodup hids, List.map_map]
  rfl

theorem mem_boxes_of_nodup {b : Box Rat} :
    b ∈ (d.arrange s).boxes ↔ ∃ n ∈ d.elements, (Plan.outcome s d (true, n)).2 = b := by
  rw [boxes_of_nodup s d hids, List.mem_map]

theorem topLevel_eq :
    (d.arrange s).topLevel =
      (Frames.build d).layered.map fun n => (Plan.outcome s d (true, n)).2 := by
  rw [topLevel, boxes_of_nodup s d hids, List.filter_map]
  congr 1
  apply List.filter_congr
  intro n _
  cases htool : n.isTool with
  | true =>
    have hkind : n.kind = .tool := by simpa [Node.isTool] using htool
    simp [Plan.outcome, Plan.settle, Plan.placed, htool, hkind]
  | false =>
    have hkind : n.kind ≠ .tool := by simpa [Node.isTool] using htool
    simp [Plan.outcome_box_of_plain s d htool, hkind, Frames.isGrouped]

theorem arrange_overlaps (hgrid : 0 < s.gridSize) (hwidth : 0 ≤ s.stepWidth)
    (hheight : 0 ≤ s.stepHeight) (hnode : s.gridSize ≤ s.nodeSpacing)
    (hrank : s.gridSize ≤ s.rankSpacing) : overlaps (d.arrange s).topLevel = [] := by
  rw [overlaps_nil, topLevel_eq s d hids, List.pairwise_map, List.pairwise_iff_getElem]
  intro k l hk hl hkl
  have hnk := List.getElem?_eq_getElem hk
  have hnl := List.getElem?_eq_getElem hl
  have htk := (Frames.mem_layered.mp (List.mem_of_getElem? hnk)).2.1
  have htl := (Frames.mem_layered.mp (List.mem_of_getElem? hnl)).2.1
  rw [Plan.outcome_box_of_plain s d htk, Plan.outcome_box_of_plain s d htl]
  exact Plan.layered_apart s d hgrid hwidth hheight hnode hrank hnk hnl (Nat.ne_of_lt hkl)

theorem arrange_escapes : (d.arrange s).boxes.filterMap (d.arrange s).escape? = [] := by
  rw [List.filterMap_eq_nil_iff]
  intro b hb
  obtain ⟨n, hn, rfl⟩ := (mem_boxes_of_nodup s d hids).mp hb
  cases htool : n.isTool with
  | true => simp [Plan.outcome, Plan.settle, Plan.placed, htool, escape?]
  | false =>
    rw [Plan.outcome_box_of_plain s d htool]
    cases hp : (Frames.build d).parent? n.id with
    | none => rfl
    | some p =>
      obtain ⟨g, hg, rfl, hgroup⟩ := (Frames.build_wellFormed d).parent?_group hp
      have hin := Plan.contains_of_parent s d hg hn hp
      simp only [escape?, Option.bind_some, box?_of_element s d hg,
        Plan.outcome_box_of_plain s d (isTool_of_isGroup hgroup), hin, if_true]

theorem mem_groups_of_nodup {b : Box Rat} (hb : b ∈ (d.arrange s).groups) :
    ∃ g ∈ d.elements, g.isGroup = true ∧ b.rect = (Plan.ofDiagram s d).rect g := by
  obtain ⟨hb, hkind⟩ := ((d.arrange s).mem_groups).mp hb
  obtain ⟨g, hg, rfl⟩ := (mem_boxes_of_nodup s d hids).mp hb
  have hgroup : g.isGroup = true := by
    rw [Node.isGroup, decide_eq_true_eq, ← hkind]
    simp only [Plan.outcome, Plan.settle, Plan.placed, if_true]
    split <;> rfl
  refine ⟨g, hg, hgroup, ?_⟩
  rw [Plan.outcome_box_of_plain s d (isTool_of_isGroup hgroup)]

theorem arrange_tooSmall : tooSmall s (d.arrange s) = [] := by
  simp only [tooSmall, List.map_eq_nil_iff, List.filter_eq_nil_iff]
  intro b hb
  obtain ⟨g, hg, hgroup, hrect⟩ := mem_groups_of_nodup s d hids hb
  have hleast := Plan.leastSize_le_size s d hg hgroup
  have hmin := Fits.min_le_leastSize s
  rw [isSmall, hrect]
  simp only [Bool.or_eq_true, decide_eq_true_eq, not_or, not_lt]
  exact ⟨hmin.1.trans hleast.1, hmin.2.trans hleast.2⟩

theorem arrange_overGroups (hgap : 0 ≤ s.tools.gap) : (d.arrange s).overGroups = [] := by
  rw [overGroups_nil]
  intro b hb c hc
  obtain ⟨g, hg, hgroup, hrect⟩ := mem_groups_of_nodup s d hids hc
  obtain ⟨hb, hkind⟩ := ((d.arrange s).mem_tools).mp hb
  obtain ⟨n, hn, rfl⟩ := (mem_boxes_of_nodup s d hids).mp hb
  cases htool : n.isTool with
  | true =>
    obtain ⟨t, ht, hid⟩ := toolPlace_of_element s d hn htool
    rw [outcome_of_tool s d htool ht hid, hrect]
    exact toolPlaces_off_groups s d hgap ht hg hgroup
  | false =>
    rw [Plan.outcome_box_of_plain s d htool] at hkind
    simp only [Node.isTool, decide_eq_false_iff_not] at htool
    exact absurd hkind htool

end Distinct

/-- An arrangement of nodes with different ids has no findings. -/
theorem arrange_clean (hids : (d.nodes.map (·.id)).Nodup) (hgrid : 0 < s.gridSize)
    (hwidth : 0 ≤ s.stepWidth) (hheight : 0 ≤ s.stepHeight) (hnode : s.gridSize ≤ s.nodeSpacing)
    (hrank : s.gridSize ≤ s.rankSpacing) (hgap : 0 ≤ s.tools.gap) :
    (d.arrange s).check s d = [] := by
  rw [check, if_pos (arrange_isOf s d), arrange_offGrid s d hgrid,
    arrange_overlaps s d hids hgrid hwidth hheight hnode hrank, arrange_escapes s d hids,
    arrange_tooSmall s d hids, arrange_overGroups s d hids hgap]
  rfl

theorem arrange_clean_standard :
    let s : LayoutSettings Rat := .standard
    let d : Diagram Rat :=
      ⟨[.new "a" .step, { Node.new "g" .group with parent := some "h" }, .new "h" .group,
          { Node.new "b" .step with parent := some "g" }, .new "t" .tool],
        [.new "a" "b" .route, .new "b" "a" .route, .new "b" "t" .tool]⟩
    (d.arrange s).check s d = [] := by
  intro s d
  have hids : (d.nodes.map (·.id)).Nodup := by decide
  have hgrid : 0 < s.gridSize := by decide +kernel
  have hwidth : 0 ≤ s.stepWidth := by decide +kernel
  have hheight : 0 ≤ s.stepHeight := by decide +kernel
  have hnode : s.gridSize ≤ s.nodeSpacing := by decide +kernel
  have hrank : s.gridSize ≤ s.rankSpacing := by decide +kernel
  have hgap : 0 ≤ s.tools.gap := by decide +kernel
  exact arrange_clean s d hids hgrid hwidth hheight hnode hrank hgap

end Diagram

end FlowCanvas
