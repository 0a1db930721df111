import FlowCanvas.Proofs.Arrangement.Box
import FlowCanvas.Proofs.Frame.Map

/-! Arranging again changes nothing. An arranged diagram has the same links. By induction from the
innermost groups outward, every group is fitted with the same size and its corner stays, because
its children already lie where its box puts them. So nothing that the flow or the tools look at has
changed. -/

namespace FlowCanvas

def Fit.rested (fit : Fit Rat) : Fit Rat := ⟨fit.offset.map fun _ => Point.origin, fit.size⟩

namespace Diagram

open Plan

variable (s : LayoutSettings Rat) (d : Diagram Rat) {n g : Node Rat}

def rest (n : Node Rat) : Node Rat := (outcome s d (true, n)).1

theorem rest_keeps : Node.Keeps (rest s d) where
  id n := settle_node_id _ _ (true, n)
  kind n := by
    simp only [rest, outcome, settle, Plan.placed, if_true]
    split <;> rfl
  parent n := by
    simp only [rest, outcome, settle, Plan.placed, if_true]
    split <;> rfl

theorem arranged_marked :
    (d.arranged s).marked = d.marked.map fun m => (m.1, (outcome s d m).1) := by
  rw [marked, arranged, nodes_outcome, marked, mark_map (settle_node_id _ _)]

theorem arranged_elements : (d.arranged s).elements = d.elements.map (rest s d) := by
  rw [elements, elements, arranged_marked, List.filterMap_map, List.map_filterMap]
  apply List.filterMap_congr
  intro m _
  cases m with
  | mk first n => cases first <;> rfl

theorem arranged_frames : Frames.build (d.arranged s) = (Frames.build d).map (rest s d) :=
  Frames.build_map (rest_keeps s d) (arranged_elements s d)

theorem mem_arranged_elements (hn : n ∈ d.elements) : rest s d n ∈ (d.arranged s).elements := by
  rw [arranged_elements]
  exact List.mem_map_of_mem hn

theorem rest_position (htool : n.isTool = false) :
    (rest s d n).position = (ofDiagram s d).position n := by
  simp only [rest, outcome, settle, Plan.placed, if_true, htool]
  rfl

theorem arranged_children (id : String) :
    (Frames.build (d.arranged s)).children id =
      ((Frames.build d).children id).map (rest s d) := by
  rw [arranged_frames, Frames.children_map (rest_keeps s d)]

theorem arranged_parent? (id : String) :
    (Frames.build (d.arranged s)).parent? id = (Frames.build d).parent? id := by
  rw [arranged_frames]
  rfl

section Fit

variable (hgrid : 0 < s.gridSize) (hn : n ∈ d.elements) (htool : n.isTool = false)
  (hfit : n.isGroup = true →
    (ofDiagram s (d.arranged s)).fits.lookup n.id =
      some (Fits.around s (childRects s d n)).rested)

include hn htool hfit

theorem size_rest : (ofDiagram s (d.arranged s)).size (rest s d n) = (ofDiagram s d).size n := by
  have hkeeps := rest_keeps s d
  cases hgroup : n.isGroup with
  | true =>
    rw [size, Fits.sizeOf, hkeeps.id, hfit hgroup, size_of_group s d hn hgroup]
    rfl
  | false =>
    have hrest : (rest s d n).isGroup = false := by rw [hkeeps.isGroup, hgroup]
    rw [size_of_other s _ (mem_arranged_elements s d hn) hrest, size_of_other s d hn hgroup,
      footprint_of_step s htool hgroup,
      footprint_of_step s (by rw [hkeeps.isTool, htool]) hrest]

include hgrid

theorem moved_rest :
    Fits.moved s (ofDiagram s (d.arranged s)).fits (rest s d n) = (ofDiagram s d).position n := by
  have hkeeps := rest_keeps s d
  have hsnap : Grid.snapPoint (rest s d n).position s.gridSize = (ofDiagram s d).position n := by
    rw [rest_position s d htool]
    exact Grid.snapPoint_of_onGrid hgrid (position_onGrid s d hgrid hn)
  have horigin : ∀ o, Fits.offset? (ofDiagram s (d.arranged s)).fits n.id = some o →
      o = Point.origin := by
    intro o ho
    cases hgroup : n.isGroup with
    | true =>
      rw [Fits.offset?, hfit hgroup, Option.bind_some, Fit.rested] at ho
      obtain ⟨p, -, hp⟩ := Option.map_eq_some_iff.mp ho
      exact hp.symm
    | false =>
      have hnone := fits_of_other s _ (mem_arranged_elements s d hn)
        (by rw [hkeeps.isGroup, hgroup])
      rw [hkeeps.id] at hnone
      rw [Fits.offset?, hnone] at ho
      cases ho
  simp only [Fits.moved, hkeeps.id, hsnap]
  cases ho : Fits.offset? (ofDiagram s (d.arranged s)).fits n.id with
  | none => rfl
  | some o =>
    rw [horigin o ho]
    simp [Point.origin]

end Fit

theorem childRect_rest (hgrid : 0 < s.gridSize) (hn : n ∈ d.elements) (hg : g ∈ d.elements)
    (hparent : (Frames.build d).parent? n.id = some g.id) {o : Point Rat}
    (ho : (Fits.around s (childRects s d g)).offset = some o)
    (hfit : n.isGroup = true → (ofDiagram s (d.arranged s)).fits.lookup n.id =
      some (Fits.around s (childRects s d n)).rested) :
    Fits.childRect s (ofDiagram s (d.arranged s)).fits (rest s d n) =
      (Fits.childRect s (ofDiagram s d).fits n).translate (-o.x) (-o.y) := by
  have hf := Frames.build_wellFormed d
  have htool : n.isTool = false := (Frames.candidate?_eq_some.mp (hf.parent?_asked hn hparent)).1
  obtain ⟨p, hp, hpos⟩ := position_of_parent s d hg hn hparent
  obtain rfl : p = o := Option.some.inj (hp.symm.trans ho)
  have hsize := size_rest s d hn htool hfit
  rw [Fits.childRect, moved_rest s d hgrid hn htool hfit, hpos,
    show Fits.sizeOf s (ofDiagram s (d.arranged s)).fits (rest s d n) =
      (ofDiagram s d).size n from hsize]
  simp only [Fits.childRect, Rect.ofCorner, Rect.translate, sub_eq_add_neg]
  rfl

theorem childRects_arranged (g : Node Rat) : childRects s (d.arranged s) (rest s d g) =
    ((Frames.build d).children g.id).map fun c =>
      Fits.childRect s (ofDiagram s (d.arranged s)).fits (rest s d c) := by
  rw [childRects, (rest_keeps s d).id, arranged_children, List.map_map]
  rfl

theorem fit_arranged (hgrid : 0 < s.gridSize) (hg : g ∈ d.elements)
    (hchildren : ∀ c ∈ (Frames.build d).children g.id, c.isGroup = true →
      (ofDiagram s (d.arranged s)).fits.lookup c.id =
        some (Fits.around s (childRects s d c)).rested) :
    Fits.around s (childRects s (d.arranged s) (rest s d g)) =
      (Fits.around s (childRects s d g)).rested := by
  cases ho : (Fits.around s (childRects s d g)).offset with
  | none =>
    have hnone : (Frames.build d).children g.id = [] :=
      List.map_eq_nil_iff.mp ((Fits.around_offset_eq_none s).mp ho)
    rw [childRects_arranged, childRects, hnone]
    rfl
  | some o =>
    have hmoved : childRects s (d.arranged s) (rest s d g) =
        (childRects s d g).map fun r => r.translate (-o.x) (-o.y) := by
      rw [childRects_arranged, childRects, List.map_map]
      apply List.map_congr_left
      intro c hc
      obtain ⟨hcmem, hparent⟩ := (Frames.mem_children _).mp hc
      exact childRect_rest s d hgrid hcmem hg hparent ho (hchildren c hc)
    rw [hmoved, Fits.around_translate s hgrid ho, Fit.rested, ho]
    rfl

theorem fits_arranged (hgrid : 0 < s.gridSize) (hg : g ∈ d.elements) (hgroup : g.isGroup = true) :
    (ofDiagram s (d.arranged s)).fits.lookup g.id =
      some (Fits.around s (childRects s d g)).rested := by
  have hkeeps := rest_keeps s d
  -- Children are deeper than their group, and nothing is deeper than there are links.
  induction hk : (Frames.build d).links.length - (Frames.build d).depth g.id using
    Nat.strong_induction_on generalizing g with
  | _ k ih =>
    have hagain := fits_of_group s (d.arranged s) (mem_arranged_elements s d hg)
      (by rw [hkeeps.isGroup, hgroup])
    rw [hkeeps.id] at hagain
    rw [hagain, fit_arranged s d hgrid hg]
    intro c hc hcgroup
    obtain ⟨hcmem, hparent⟩ := (Frames.mem_children _).mp hc
    have hdeeper := (Frames.build_wellFormed d).depth_of_parent hparent
    have hbound := (Frames.build d).depth_le c.id
    exact ih _ (by omega) hcmem hcgroup rfl

section Again

variable (hgrid : 0 < s.gridSize)

include hgrid

theorem size_arranged (hn : n ∈ d.elements) (htool : n.isTool = false) :
    (ofDiagram s (d.arranged s)).size (rest s d n) = (ofDiagram s d).size n :=
  size_rest s d hn htool fun hgroup => fits_arranged s d hgrid hn hgroup

theorem flow_arranged : flowOf s (d.arranged s) = flowOf s d := by
  have hkeeps := rest_keeps s d
  have hsizes : (Frames.build (d.arranged s)).layered.map (ofDiagram s (d.arranged s)).size =
      (Frames.build d).layered.map (ofDiagram s d).size := by
    rw [arranged_frames, Frames.layered_map hkeeps, List.map_map]
    apply List.map_congr_left
    intro n hn
    obtain ⟨hmem, htool, -⟩ := Frames.mem_layered.mp hn
    exact size_arranged s d hgrid hmem htool
  have hroutes : (Frames.build (d.arranged s)).slotRoutes (d.arranged s).edges =
      (Frames.build d).slotRoutes d.edges := by
    rw [arranged_frames, Frames.slotRoutes_map hkeeps, arranged]
  rw [flowOf, Frames.flow, hsizes, hroutes]
  rfl

theorem corners_arranged : (ofDiagram s (d.arranged s)).corners = (ofDiagram s d).corners := by
  have hkeeps := rest_keeps s d
  rw [corners_eq, corners_eq, flow_arranged s d hgrid, arranged_frames, Frames.layered_map hkeeps,
    Frames.layeredIds_map hkeeps, List.zip_map_left, List.map_map]
  apply List.map_congr_left
  intro q hq
  obtain ⟨hmem, htool, -⟩ := Frames.mem_layered.mp (List.of_mem_zip hq).1
  simp only [Function.comp_apply, Prod.map, hkeeps.id, id_eq, size_arranged s d hgrid hmem htool]

theorem position_arranged (hn : n ∈ d.elements) :
    (ofDiagram s (d.arranged s)).position (rest s d n) = (ofDiagram s d).position n := by
  have hf := Frames.build_wellFormed d
  have hkeeps := rest_keeps s d
  have hparent : (Frames.build (d.arranged s)).parent? (rest s d n).id =
      (Frames.build d).parent? n.id := by
    rw [arranged_parent?, hkeeps.id]
  cases hp : (Frames.build d).parent? n.id with
  | none =>
    rw [hp] at hparent
    rw [position_of_free s _ hparent, position_of_free s d hp, corners_arranged s d hgrid,
      hkeeps.id]
  | some p =>
    rw [hp] at hparent
    obtain ⟨g, hg, rfl, hgroup⟩ := hf.parent?_group hp
    obtain ⟨o, ho, -⟩ := position_of_parent s d hg hn hp
    have htool : n.isTool = false := (Frames.candidate?_eq_some.mp (hf.parent?_asked hn hp)).1
    have hmoved := moved_rest s d hgrid hn htool fun h => fits_arranged s d hgrid hn h
    have hoffset : Fits.offset? (ofDiagram s (d.arranged s)).fits g.id = some Point.origin := by
      rw [Fits.offset?, fits_arranged s d hgrid hg hgroup, Option.bind_some, Fit.rested, ho]
      rfl
    rw [position_of_grouped s _ hparent]
    simp only [Fits.positionInGroup, hoffset, hmoved]
    simp [Point.origin]

theorem positionOf_arranged (id : String) :
    (ofDiagram s (d.arranged s)).positionOf id = (ofDiagram s d).positionOf id := by
  have hf := Frames.build_wellFormed d
  have helement : (ofDiagram s (d.arranged s)).frames.element? id =
      ((Frames.build d).element? id).map (rest s d) := by
    rw [ofDiagram_frames, arranged_frames, Frames.element?_map (rest_keeps s d)]
  rw [positionOf, positionOf, helement, ofDiagram_frames]
  cases he : (Frames.build d).element? id with
  | none => rfl
  | some n => exact position_arranged s d hgrid (hf.element?_eq_some.mp he).1

theorem rect_arranged (hn : n ∈ d.elements) (htool : n.isTool = false) :
    (ofDiagram s (d.arranged s)).rect (rest s d n) = (ofDiagram s d).rect n := by
  have hpositions : (ofDiagram s (d.arranged s)).positionOf = (ofDiagram s d).positionOf :=
    funext (positionOf_arranged s d hgrid)
  have hancestors : (ofDiagram s (d.arranged s)).frames.ancestors (rest s d n).id =
      (ofDiagram s d).frames.ancestors n.id := by
    rw [ofDiagram_frames, arranged_frames, (rest_keeps s d).id]
    rfl
  rw [rect, corner, hancestors, hpositions, position_arranged s d hgrid hn,
    size_arranged s d hgrid hn htool, rect, corner]

theorem placed_arranged :
    ((ofDiagram s (d.arranged s)).frames.elements.filter (!·.isTool)).map
        (fun n => (n, (ofDiagram s (d.arranged s)).rect n)) =
      ((ofDiagram s d).frames.elements.filter (!·.isTool)).map
        fun n => (rest s d n, (ofDiagram s d).rect n) := by
  have hplain : ((fun n : Node Rat => !n.isTool) ∘ rest s d) = fun n => !n.isTool := by
    funext n
    rw [Function.comp_apply, (rest_keeps s d).isTool]
  rw [show (ofDiagram s (d.arranged s)).frames.elements = d.elements.map (rest s d) from
    arranged_elements s d, List.filter_map, hplain, List.map_map]
  apply List.map_congr_left
  intro n hn
  obtain ⟨hmem, htool⟩ := List.mem_filter.mp hn
  rw [Function.comp_apply, rect_arranged s d hgrid hmem (by simpa using htool)]

theorem scene_arranged : (ofDiagram s (d.arranged s)).scene = (ofDiagram s d).scene := by
  have hkeeps := rest_keeps s d
  have hgrouped (id : String) : (ofDiagram s (d.arranged s)).frames.isGrouped id =
      (ofDiagram s d).frames.isGrouped id := by
    rw [Frames.isGrouped, ofDiagram_frames, arranged_parent?]
    rfl
  simp only [scene, placed_arranged s d hgrid, List.map_map, List.filter_map, Function.comp_def,
    hkeeps.id, hkeeps.isGroup, hgrouped]

theorem toolPlaces_arranged : toolPlaces s (d.arranged s) = toolPlaces s d := by
  rw [toolPlaces, scene_arranged s d hgrid, arranged_frames,
    Scene.placeTools_map (rest_keeps s d)]
  rfl

theorem outcome_arranged {m : Bool × Node Rat} (hm : m ∈ d.marked) :
    outcome s (d.arranged s) (m.1, (outcome s d m).1) = outcome s d m := by
  obtain ⟨first, n⟩ := m
  cases first with
  | false =>
    have hsnap := Grid.snapPoint_of_onGrid hgrid (Grid.snapPoint_onGrid hgrid n.position)
    simp only [outcome, settle, Plan.spare, Bool.false_eq_true, if_false, ofDiagram_settings, hsnap]
    rfl
  | true =>
    have hn := mem_elements.mpr hm
    have hkeeps := rest_keeps s d
    change outcome s (d.arranged s) (true, rest s d n) = outcome s d (true, n)
    cases htool : n.isTool with
    | true =>
      simp only [outcome, settle, Plan.placed, if_true, hkeeps.isTool, htool, hkeeps.id,
        hkeeps.kind, toolPlaces_arranged s d hgrid, ofDiagram_settings]
      simp only [rest, outcome, settle, Plan.placed, if_true, htool]
    | false =>
      simp only [outcome, settle, Plan.placed, if_true, hkeeps.isTool, hkeeps.isGroup, htool,
        hkeeps.id, hkeeps.kind, ofDiagram_frames, arranged_parent?, size_arranged s d hgrid hn htool,
        position_arranged s d hgrid hn, rect_arranged s d hgrid hn htool]
      simp only [rest, outcome, settle, Plan.placed, if_true, htool]
      cases hgroup : n.isGroup with
      | true => simp
      | false => simp

theorem arrange_arranged : (d.arranged s).arrange s = d.arrange s := by
  have houtcome : (d.arranged s).marked.map (outcome s (d.arranged s)) =
      d.marked.map (outcome s d) := by
    rw [arranged_marked, List.map_map]
    exact List.map_congr_left fun m hm => outcome_arranged s d hgrid hm
  have harrange (e : Diagram Rat) : e.arrange s =
      ⟨(e.marked.map (outcome s e)).map (·.1), (e.marked.map (outcome s e)).map (·.2),
        Arrangement.boundsOf ((e.marked.map (outcome s e)).map (·.2))⟩ := rfl
  rw [harrange, harrange d, houtcome]

/-- Arranging a diagram that is arranged changes nothing. -/
theorem arranged_idempotent : (d.arranged s).arranged s = d.arranged s := by
  rw [arranged, arrange_arranged s d hgrid]
  rfl

end Again

theorem arranged_idempotent_standard :
    let s : LayoutSettings Rat := .standard
    let d : Diagram Rat :=
      ⟨[{ Node.new "a" .step with parent := some "g" }, .new "g" .group, .new "a" .tool,
          { Node.new "t" .tool with position := ⟨7, 13⟩ }],
        [.new "a" "g" .route, .new "a" "t" .tool]⟩
    (d.arranged s).arranged s = d.arranged s := by
  intro s d
  have hgrid : 0 < s.gridSize := by decide +kernel
  exact arranged_idempotent s d hgrid

end Diagram

end FlowCanvas
