import FlowCanvas.Arrangement
import FlowCanvas.Proofs.Fit.Fixpoint
import FlowCanvas.Proofs.Frame.Mirror

/-! Plans of mirrored frames. From the innermost groups outward, corresponding groups are fitted
alike, so that corresponding elements have one size. If the routes join the same slots, the flow is
the same one, and corresponding elements lie in the same place. Nothing is computed with the
coordinates here, so this holds of rounded ones as well. -/

namespace FlowCanvas

variable {α : Type} [Scalar α]

theorem LayoutSettings.footprint_congr (s : LayoutSettings α) {n m : Node α}
    (hkind : m.kind = n.kind) (hgroup : n.isGroup = false) : s.footprint m = s.footprint n := by
  rw [footprint, footprint, hkind]
  cases hk : n.kind with
  | group => simp [Node.isGroup, hk] at hgroup
  | step => rfl
  | tool => rfl
  | other name => rfl

namespace Frames.Mirrors

variable {f f' : Frames α} {n : Node α} {r : String → String} {change : Node α → Node α}
  (h : Mirrors r change f f') (s : LayoutSettings α) (hf : f.WellFormed) (hf' : f'.WellFormed)

include h

section Fit

variable {fits fits' : Fits α}

theorem moved_eq (hn : n ∈ f.plain) (hgrouped : f.isGrouped n.id = true)
    (hlookup : fits'.lookup (r n.id) = fits.lookup n.id) :
    Fits.moved s fits' (change n) = Fits.moved s fits n := by
  simp only [Fits.moved, Fits.offset?, h.id n hn, h.position n hn hgrouped, hlookup]

theorem sizeOf_eq (hn : n ∈ f.plain)
    (hfitted : n.isGroup = true → ∃ fit, fits.lookup n.id = some fit)
    (hlookup : fits'.lookup (r n.id) = fits.lookup n.id) :
    Fits.sizeOf s fits' (change n) = Fits.sizeOf s fits n := by
  rw [Fits.sizeOf, Fits.sizeOf, h.id n hn, hlookup]
  cases hfit : fits.lookup n.id with
  | some fit => rfl
  | none =>
    cases hgroup : n.isGroup with
    | false => exact s.footprint_congr (h.kind n hn) hgroup
    | true =>
      obtain ⟨fit, hsome⟩ := hfitted hgroup
      rw [hfit] at hsome
      cases hsome

end Fit

include hf hf'

theorem fits_lookup (hn : n ∈ f.plain) :
    (f'.fits s).lookup (r n.id) = (f.fits s).lookup n.id := by
  have hall : ∀ n ∈ f.elements, n.isTool = false →
      (f'.fits s).lookup (r n.id) = (f.fits s).lookup n.id := by
    refine hf.inward (P := fun n => n.isTool = false → _) ?_
    intro n hmem hchildren htool
    have hn := mem_plain.mpr ⟨hmem, htool⟩
    have hkind := h.isGroup hn
    cases hgroup : n.isGroup with
    | false =>
      rw [hgroup] at hkind
      have hnone := fits_lookup_none s hf' (h.mem_elements hn) hkind
      rw [h.id n hn] at hnone
      rw [hnone, fits_lookup_none s hf hmem hgroup]
    | true =>
      rw [hgroup] at hkind
      have hfit := Frames.fits_lookup s hf' (h.mem_elements hn) hkind
      rw [h.id n hn] at hfit
      rw [hfit, Frames.fits_lookup s hf hmem hgroup, Fits.fit, Fits.fit, h.id n hn,
        h.children hf hf', List.map_map]
      congr 2
      apply List.map_congr_left
      intro c hc
      obtain ⟨hcmem, hparent⟩ := (mem_children f).mp hc
      have hcplain := hf.mem_plain_of_mem_children hc
      have hlookup := hchildren c hc (mem_plain.mp hcplain).2
      have hgrouped : f.isGrouped c.id = true := by rw [Frames.isGrouped, hparent]; rfl
      have hsize := h.sizeOf_eq s hcplain
        (fun hcgroup => ⟨_, Frames.fits_lookup s hf hcmem hcgroup⟩) hlookup
      rw [Function.comp_apply, Fits.childRect, Fits.childRect, hsize,
        h.moved_eq s hcplain hgrouped hlookup]
  exact hall n (mem_plain.mp hn).1 (mem_plain.mp hn).2

theorem size_eq (hn : n ∈ f.plain) :
    Fits.sizeOf s (f'.fits s) (change n) = Fits.sizeOf s (f.fits s) n := by
  apply h.sizeOf_eq s hn _ (h.fits_lookup s hf hf' hn)
  intro hgroup
  exact ⟨_, Frames.fits_lookup s hf (mem_plain.mp hn).1 hgroup⟩

theorem offset?_eq (hn : n ∈ f.plain) :
    Fits.offset? (f'.fits s) (r n.id) = Fits.offset? (f.fits s) n.id := by
  rw [Fits.offset?, h.fits_lookup s hf hf' hn, Fits.offset?]

end Frames.Mirrors

def Scene.rename (r : String → String) (scene : Scene α) : Scene α :=
  { scene with rects := scene.rects.map (Prod.map r id) }

omit [Scalar α] in
theorem Scene.rename_id (scene : Scene α) : scene.rename id = scene := by
  rw [rename, Prod.map_id, List.map_id]

namespace Plan

open Frames

theorem scene_eq (s : LayoutSettings α) (d : Diagram α) : (ofDiagram s d).scene =
    { rects := (build d).plain.map fun n => (n.id, (ofDiagram s d).rect n)
      groups := ((build d).plain.filter (·.isGroup)).map (ofDiagram s d).rect
      steps := ((build d).plain.filter (!·.isGroup)).map (ofDiagram s d).rect
      free := Rect.enclosing? (((build d).plain.filter fun n =>
        !(build d).isGrouped n.id && !n.isGroup).map (ofDiagram s d).rect) } := by
  simp only [scene, plain, List.filter_map, List.map_map, List.filter_filter, Bool.and_assoc]
  rfl

theorem position_eq (s : LayoutSettings α) (d : Diagram α) (n : Node α) :
    (ofDiagram s d).position n =
      match (build d).parent? n.id with
      | some group => Fits.positionInGroup s ((build d).fits s) group n
      | none => ((ofDiagram s d).corners.lookup n.id).getD Point.origin := rfl

theorem scene_rect (s : LayoutSettings α) {d : Diagram α} {n : Node α} (hn : n ∈ (build d).plain) :
    (ofDiagram s d).scene.rects.lookup n.id = some ((ofDiagram s d).rect n) := by
  rw [scene_eq]
  refine lookup_eq_of_mem ?_ (List.mem_map_of_mem hn)
  rw [List.map_map]
  exact (build_wellFormed d).nodup.sublist (List.filter_sublist.map _)

variable {d d' : Diagram α} {n : Node α} {r : String → String} {change : Node α → Node α}
  (h : Mirrors r change (build d) (build d')) (s : LayoutSettings α)

include h

theorem size_mirrored (hn : n ∈ (build d).plain) :
    (ofDiagram s d').size (change n) = (ofDiagram s d).size n :=
  h.size_eq s (build_wellFormed d) (build_wellFormed d') hn

section Flow

variable (hroutes : (build d').slotRoutes d'.edges = (build d).slotRoutes d.edges)

include hroutes

theorem flow_mirrored : (build d').flow s d'.edges (ofDiagram s d').size =
    (build d).flow s d.edges (ofDiagram s d).size := by
  have hsizes : (build d').layered.map (ofDiagram s d').size =
      (build d).layered.map (ofDiagram s d).size := by
    rw [h.layered, List.map_map]
    exact List.map_congr_left fun n hn => size_mirrored h s (mem_plain_of_mem_layered hn)
  rw [Frames.flow, Frames.flow, hsizes, hroutes]

theorem corners_mirrored :
    (ofDiagram s d').corners = (ofDiagram s d).corners.map (Prod.map r id) := by
  have hcorners (e : Diagram α) : (ofDiagram s e).corners =
      ((build e).layered.zip ((build e).layeredIds.zip
        (((build e).flow s e.edges (ofDiagram s e).size).centers s))).map fun q =>
          (q.1.id, Grid.snapPoint (cornerOf q.2.2 ((ofDiagram s e).size q.1)) s.gridSize) := rfl
  have hids : (build d').layeredIds = (build d).layeredIds.map r := h.layeredIds
  rw [hcorners, hcorners, flow_mirrored h s hroutes, hids, h.layered, List.zip_map_left,
    List.zip_map_left, List.zip_map_right, List.map_map, List.map_map, List.map_map]
  apply List.map_congr_left
  intro q hq
  have hn := mem_plain_of_mem_layered (List.of_mem_zip hq).1
  simp only [Function.comp_apply, Prod.map, h.id _ hn, size_mirrored h s hn, id_eq]

theorem position_mirrored (hn : n ∈ (build d).plain) :
    (ofDiagram s d').position (change n) = (ofDiagram s d).position n := by
  have hf := build_wellFormed d
  have hf' := build_wellFormed d'
  have hparent : (build d').parent? (change n).id = ((build d).parent? n.id).map r := by
    rw [h.id n hn, h.parent?]
  rw [position_eq, position_eq, hparent]
  cases hp : (build d).parent? n.id with
  | none =>
    rw [Option.map_none, h.id n hn, corners_mirrored h s hroutes, lookup_rename h.injective,
      Option.map_id_fun, id_eq]
  | some p =>
    obtain ⟨g, hg, rfl, hgroup⟩ := hf.parent?_group hp
    have hgplain := mem_plain.mpr ⟨hg, Diagram.isTool_of_isGroup hgroup⟩
    have hgrouped : (build d).isGrouped n.id = true := by rw [isGrouped, hp]; rfl
    have hmoved := h.moved_eq s hn hgrouped (h.fits_lookup s hf hf' hn)
    simp only [Option.map_some, Fits.positionInGroup, hmoved, h.offset?_eq s hf hf' hgplain]

theorem positionOf_mirrored (hn : n ∈ (build d).plain) :
    (ofDiagram s d').positionOf (r n.id) = (ofDiagram s d).positionOf n.id := by
  have hfound : (ofDiagram s d').frames.element? (r n.id) = some (change n) :=
    h.element? (build_wellFormed d') hn
  have hfound' : (ofDiagram s d).frames.element? n.id = some n :=
    (build_wellFormed d).element?_of_mem (mem_plain.mp hn).1
  rw [positionOf, positionOf, hfound, hfound']
  exact position_mirrored h s hroutes hn

theorem rect_mirrored (hn : n ∈ (build d).plain) :
    (ofDiagram s d').rect (change n) = (ofDiagram s d).rect n := by
  have habove : ((build d').ancestors (change n).id).map (ofDiagram s d').positionOf =
      ((build d).ancestors n.id).map (ofDiagram s d).positionOf := by
    rw [h.id n hn, h.ancestors, List.map_map]
    apply List.map_congr_left
    intro p hp
    obtain ⟨g, hg, rfl, hgroup⟩ := (build_wellFormed d).ancestors_group hp
    have hgplain := mem_plain.mpr ⟨hg, Diagram.isTool_of_isGroup hgroup⟩
    exact positionOf_mirrored h s hroutes hgplain
  have hcorner (e : Diagram α) (m : Node α) : (ofDiagram s e).corner m =
      (((build e).ancestors m.id).map (ofDiagram s e).positionOf).foldl
        (fun c q => ⟨c.x + q.x, c.y + q.y⟩) ((ofDiagram s e).position m) := rfl
  rw [rect, rect, hcorner, hcorner, habove, position_mirrored h s hroutes hn,
    size_mirrored h s hn]

theorem placed_mirrored (hn : n ∈ (build d).plain) (tools : List (ToolPlace α)) :
    (ofDiagram s d').placed tools (change n) =
      ({ change n with
          position := (ofDiagram s d).position n
          style := if n.isGroup then
              { (change n).style with
                width := some (.number ((ofDiagram s d).size n).width)
                height := some (.number ((ofDiagram s d).size n).height) }
            else (change n).style },
        ⟨r n.id, n.kind, ((build d).parent? n.id).map r, (ofDiagram s d).rect n⟩) := by
  have htool : (change n).isTool = false := by rw [h.isTool hn, (mem_plain.mp hn).2]
  simp only [placed, htool, Bool.false_eq_true, if_false, h.isGroup hn, h.id n hn, h.kind n hn,
    ofDiagram_frames, h.parent?, size_mirrored h s hn, position_mirrored h s hroutes hn,
    rect_mirrored h s hroutes hn]

theorem rects_mirrored {p p' : Node α → Bool}
    (hp : ∀ n ∈ (build d).plain, p' (change n) = p n) :
    ((build d').plain.filter p').map (ofDiagram s d').rect =
      ((build d).plain.filter p).map (ofDiagram s d).rect := by
  rw [h.filter hp, List.map_map]
  exact List.map_congr_left fun n hn =>
    rect_mirrored h s hroutes (List.mem_of_mem_filter hn)

theorem scene_mirrored : (ofDiagram s d').scene = (ofDiagram s d).scene.rename r := by
  have hgroup : ∀ n ∈ (build d).plain, (change n).isGroup = n.isGroup := fun n => h.isGroup
  have hstep : ∀ n ∈ (build d).plain, (!(change n).isGroup) = !n.isGroup :=
    fun n hn => by rw [hgroup n hn]
  have hfree : ∀ n ∈ (build d).plain,
      (!(build d').isGrouped (change n).id && !(change n).isGroup) =
        (!(build d).isGrouped n.id && !n.isGroup) :=
    fun n hn => by rw [hgroup n hn, h.id n hn, h.isGrouped]
  have hrects : ((build d').plain.map fun n => (n.id, (ofDiagram s d').rect n)) =
      ((build d).plain.map fun n => (n.id, (ofDiagram s d).rect n)).map (Prod.map r id) := by
    rw [h.plain, List.map_map, List.map_map]
    apply List.map_congr_left
    intro n hn
    simp only [Function.comp_apply, Prod.map, h.id n hn, rect_mirrored h s hroutes hn, id_eq]
  rw [scene_eq, scene_eq, hrects, rects_mirrored h s hroutes hgroup,
    rects_mirrored h s hroutes hstep, rects_mirrored h s hroutes hfree]
  rfl

end Flow

end Plan

end FlowCanvas
