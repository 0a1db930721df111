import FlowCanvas.Proofs.Arrangement.Plan

/-! Groups on the canvas in exact arithmetic. The box of a group holds the boxes of its children and
is not smaller than the least size; no element has a negative size, and all positions are on the
grid. -/

namespace FlowCanvas.Plan

open Frames

variable (s : LayoutSettings Rat) (d : Diagram Rat) {n g : Node Rat}

def childRects (g : Node Rat) : List (Rect Rat) :=
  ((Frames.build d).children g.id).map (Fits.childRect s (ofDiagram s d).fits)

theorem fits_of_group (hg : g ∈ d.elements) (hgroup : g.isGroup = true) :
    (ofDiagram s d).fits.lookup g.id = some (Fits.around s (childRects s d g)) :=
  fits_lookup s (build_wellFormed d) hg hgroup

theorem fits_of_other (hn : n ∈ d.elements) (hgroup : n.isGroup = false) :
    (ofDiagram s d).fits.lookup n.id = none :=
  fits_lookup_none s (build_wellFormed d) hn hgroup

theorem group_of_parent {id : String} (hg : g ∈ d.elements)
    (h : (Frames.build d).parent? id = some g.id) : g.isGroup = true := by
  have hf := build_wellFormed d
  obtain ⟨m, hm, hid, hgroup⟩ := hf.parent?_group h
  rwa [hf.eq_of_id hm hg hid] at hgroup

theorem size_of_group (hg : g ∈ d.elements) (hgroup : g.isGroup = true) :
    (ofDiagram s d).size g = (Fits.around s (childRects s d g)).size := by
  rw [size, Fits.sizeOf, fits_of_group s d hg hgroup]

theorem size_of_other (hn : n ∈ d.elements) (hgroup : n.isGroup = false) :
    (ofDiagram s d).size n = s.footprint n := by
  rw [size, Fits.sizeOf, fits_of_other s d hn hgroup]
  rfl

theorem footprint_of_step (htool : n.isTool = false) (hgroup : n.isGroup = false) :
    s.footprint n = ⟨s.stepWidth, s.stepHeight⟩ := by
  unfold LayoutSettings.footprint
  cases hk : n.kind with
  | tool => simp [Node.isTool, hk] at htool
  | group => simp [Node.isGroup, hk] at hgroup
  | step => rfl
  | other name => rfl

theorem leastSize_le_size (hg : g ∈ d.elements) (hgroup : g.isGroup = true) :
    (Fits.leastSize s).width ≤ ((ofDiagram s d).size g).width ∧
      (Fits.leastSize s).height ≤ ((ofDiagram s d).size g).height := by
  rw [size_of_group s d hg hgroup]
  exact Fits.leastSize_le_around s

theorem size_nonneg (hgrid : 0 < s.gridSize) (hw : 0 ≤ s.stepWidth) (hh : 0 ≤ s.stepHeight)
    (hn : n ∈ d.elements) (htool : n.isTool = false) :
    0 ≤ ((ofDiagram s d).size n).width ∧ 0 ≤ ((ofDiagram s d).size n).height := by
  cases hgroup : n.isGroup with
  | true =>
    have hleast := leastSize_le_size s d hn hgroup
    have hstep := Fits.grid_le_leastSize s
    constructor <;> linarith
  | false =>
    rw [size_of_other s d hn hgroup, footprint_of_step s htool hgroup]
    exact ⟨hw, hh⟩

theorem sizeAt_nonneg (hgrid : 0 < s.gridSize) (hwidth : 0 ≤ s.stepWidth)
    (hheight : 0 ≤ s.stepHeight) (slot : Nat) :
    0 ≤ s.direction.along ((flowOf s d).sizeAt slot) ∧
      0 ≤ s.direction.across ((flowOf s d).sizeAt slot) := by
  have hsize : 0 ≤ ((flowOf s d).sizeAt slot).width ∧ 0 ≤ ((flowOf s d).sizeAt slot).height := by
    cases h : (Frames.build d).layered[slot]? with
    | none => simp [Flow.sizeAt, flowOf_sizes, h]
    | some n =>
      obtain ⟨hn, htool, -⟩ := Frames.mem_layered.mp (List.mem_of_getElem? h)
      have hnonneg := size_nonneg s d hgrid hwidth hheight hn htool
      simpa [Flow.sizeAt, flowOf_sizes, h] using hnonneg
  cases s.direction with
  | topDown => exact ⟨hsize.2, hsize.1⟩
  | leftRight => exact hsize

theorem half_nonneg (hgrid : 0 < s.gridSize) (hwidth : 0 ≤ s.stepWidth)
    (hheight : 0 ≤ s.stepHeight) (slot : Nat) : 0 ≤ (flowOf s d).half s slot :=
  div_nonneg (sizeAt_nonneg s d hgrid hwidth hheight slot).2 (by norm_num)

theorem position_of_parent (hg : g ∈ d.elements) (hn : n ∈ d.elements)
    (h : (Frames.build d).parent? n.id = some g.id) :
    ∃ o, (Fits.around s (childRects s d g)).offset = some o ∧
      (ofDiagram s d).position n =
        ⟨(Fits.moved s (ofDiagram s d).fits n).x - o.x,
          (Fits.moved s (ofDiagram s d).fits n).y - o.y⟩ := by
  have hchild : n ∈ (Frames.build d).children g.id := (mem_children _).mpr ⟨hn, h⟩
  have hrect : Fits.childRect s (ofDiagram s d).fits n ∈ childRects s d g :=
    List.mem_map_of_mem hchild
  obtain ⟨o, ho⟩ := Fits.around_offset_of_mem s hrect
  refine ⟨o, ho, ?_⟩
  have hoffset : Fits.offset? (ofDiagram s d).fits g.id = some o := by
    rw [Fits.offset?, fits_of_group s d hg (group_of_parent d hg h), Option.bind_some, ho]
  rw [position_of_grouped s d h]
  simp only [Fits.positionInGroup, hoffset]

theorem contains_of_parent (hg : g ∈ d.elements) (hn : n ∈ d.elements)
    (h : (Frames.build d).parent? n.id = some g.id) :
    ((ofDiagram s d).rect g).contains ((ofDiagram s d).rect n) = true := by
  obtain ⟨o, ho, hpos⟩ := position_of_parent s d hg hn h
  have hchild : n ∈ (Frames.build d).children g.id := (mem_children _).mpr ⟨hn, h⟩
  have hfit := Fits.around_contains s ho
    (List.mem_map_of_mem (f := Fits.childRect s (ofDiagram s d).fits) hchild)
  have hsize : Fits.sizeOf s (ofDiagram s d).fits n = (ofDiagram s d).size n := rfl
  rw [Rect.contains_iff] at hfit
  simp only [Rect.right_rat, Rect.bottom_rat, Rect.ofCorner, Fits.childRect, hsize] at hfit
  obtain ⟨hleft, htop, hright, hbottom⟩ := hfit
  have hcorner := corner_of_parent (p := ofDiagram s d) (build_wellFormed d) hg h
  rw [rect, rect, hcorner, hpos, size_of_group s d hg (group_of_parent d hg h)]
  refine Rect.contains_iff.mpr ⟨?_, ?_, ?_, ?_⟩
  · simp only [Rect.ofCorner]
    linarith
  · simp only [Rect.ofCorner]
    linarith
  · simp only [Rect.right_rat, Rect.ofCorner]
    linarith
  · simp only [Rect.bottom_rat, Rect.ofCorner]
    linarith

theorem moved_onGrid (hgrid : 0 < s.gridSize) (hn : n ∈ d.elements) :
    (Fits.moved s (ofDiagram s d).fits n).OnGrid s.gridSize := by
  have hsnap := Grid.snapPoint_onGrid hgrid n.position
  unfold Fits.moved
  cases ho : Fits.offset? (ofDiagram s d).fits n.id with
  | none => exact hsnap
  | some o =>
    obtain ⟨fit, hlookup, hoffset⟩ := Option.bind_eq_some_iff.mp ho
    cases hgroup : n.isGroup with
    | true =>
      rw [fits_of_group s d hn hgroup] at hlookup
      cases hlookup
      have hgo := Fits.around_offset_onGrid s hgrid hoffset
      exact ⟨hsnap.1.add hgo.1, hsnap.2.add hgo.2⟩
    | false =>
      rw [fits_of_other s d hn hgroup] at hlookup
      cases hlookup

theorem corners_onGrid (hgrid : 0 < s.gridSize) {id : String} {p : Point Rat}
    (h : (id, p) ∈ (ofDiagram s d).corners) : p.OnGrid s.gridSize := by
  obtain ⟨⟨m, c⟩, -, he⟩ := List.mem_map.mp h
  cases he
  exact Grid.snapPoint_onGrid hgrid _

theorem position_onGrid (hgrid : 0 < s.gridSize) (hn : n ∈ d.elements) :
    ((ofDiagram s d).position n).OnGrid s.gridSize := by
  cases hp : (Frames.build d).parent? n.id with
  | some p =>
    obtain ⟨g, hg, rfl, -⟩ := (build_wellFormed d).parent?_group hp
    obtain ⟨o, ho, hpos⟩ := position_of_parent s d hg hn hp
    have hmoved := moved_onGrid s d hgrid hn
    have hgo := Fits.around_offset_onGrid s hgrid ho
    rw [hpos]
    exact ⟨hmoved.1.sub hgo.1, hmoved.2.sub hgo.2⟩
  | none =>
    rw [position_of_free s d hp]
    cases hc : (ofDiagram s d).corners.lookup n.id with
    | none => exact ⟨Grid.OnGrid.zero, Grid.OnGrid.zero⟩
    | some p => exact corners_onGrid s d hgrid (mem_of_lookup hc)

end FlowCanvas.Plan
