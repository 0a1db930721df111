import FlowCanvas.Arrangement
import FlowCanvas.Proofs.Checked.Center
import FlowCanvas.Proofs.Checked.Fit
import FlowCanvas.Proofs.Checked.Route

/-! The plan on checked arrays: where everything but the tools goes. Every layered element is given
a centre, which is found again when its corner is written; and the way up from a node, along which
positions are added, ends. -/

namespace FlowCanvas

variable {α : Type} [Scalar α]

namespace Checked

def layered (d : Diagram α) (parents : List (Option Nat)) : List Nat :=
  indices d fun n i => !n.isTool && !parents[i]?.join.isSome

def extent? (s : LayoutSettings α) (sizes : List (Size α)) (layered : List Nat) : Extents α :=
  fun slot => do
    let i ← layered[slot]?
    let size ← sizes[i]?
    some (s.direction.along size, s.direction.across size / Scalar.two)

def layout? (s : LayoutSettings α) (d : Diagram α) (parents : List (Option Nat))
    (sizes : List (Size α)) (layered : List Nat) : Option (List (Nat × Point α)) :=
  if layered.isEmpty then some []
  else do
    let routes ← routes? d parents layered
    let centers ← flow? s (extent? s sizes layered) layered.length (slotRoutes layered routes)
    some (layered.zip centers)

def placeCorner? (s : LayoutSettings α) (sizes : List (Size α)) (centers : List (Nat × Point α))
    (positions : List (Point α)) (i : Nat) : Option (List (Point α)) := do
  let size ← sizes[i]?
  let center ← centers.lookup i
  write? positions i (Grid.snapPoint (Plan.cornerOf center size) s.gridSize)

def addPosition? (positions : List (Point α)) (corner : Point α) (i : Nat) :
    Option (Point α) := do
  let p ← positions[i]?
  some ⟨corner.x + p.x, corner.y + p.y⟩

def rect? (d : Diagram α) (parents : List (Option Nat)) (positions : List (Point α))
    (sizes : List (Size α)) (x : (Bool × Node α) × Nat) : Option (Option (Rect α)) :=
  if x.1.2.isTool then some none
  else do
    let own ← positions[x.2]?
    let above ← climb? parents d.nodes.length x.2
    let corner ← above.foldlM (addPosition? positions) own
    let size ← sizes[x.2]?
    some (some (Rect.ofCorner corner size))

def rects? (d : Diagram α) (parents : List (Option Nat)) (positions : List (Point α))
    (sizes : List (Size α)) : Option (List (Option (Rect α))) :=
  d.marked.zipIdx.mapM (rect? d parents positions sizes)

end Checked

open Checked

namespace Plan

open Frames Diagram

variable {s : LayoutSettings α} {d : Diagram α} {n : Node α} {i : Nat} {m : Bool × Node α}

def cell (s : LayoutSettings α) (d : Diagram α) (m : Bool × Node α) : Point α :=
  if m.1 then
    if m.2.isTool then m.2.position else (ofDiagram s d).position m.2
  else Grid.snapPoint m.2.position s.gridSize

def extentOf (s : LayoutSettings α) (d : Diagram α) (m : Bool × Node α) : Size α :=
  Fits.size s ((build d).fits s) m

abbrev layeredPlaces (d : Diagram α) : List Nat :=
  (build d).layered.map fun n => d.placeOf n.id

omit [Scalar α] in
theorem layered_eq (d : Diagram α) : Checked.layered d (groupTable d) = layeredPlaces d := by
  refine indices_eq fun i n hi => ?_
  rw [link_read hi.marked, isGrouped]
  simp

def planFlow (s : LayoutSettings α) (d : Diagram α) : Flow α :=
  (build d).flow s d.edges (Fits.sizeOf s ((build d).fits s))

abbrev centerTable (s : LayoutSettings α) (d : Diagram α) : List (Nat × Point α) :=
  (layeredPlaces d).zip ((planFlow s d).centers s)

theorem extent?_eq {slot : Nat} (h : slot < (build d).layered.length) :
    Checked.extent? s (d.marked.map (extentOf s d)) (layeredPlaces d) slot =
      some ((planFlow s d).depth s slot, (planFlow s d).half s slot) := by
  have hmem : (build d).layered[slot] ∈ d.elements := (mem_layered.mp (List.getElem_mem h)).1
  have hsize : (planFlow s d).sizeAt slot =
      Fits.sizeOf s ((build d).fits s) (build d).layered[slot] := by
    simp [planFlow, Frames.flow, Flow.ofEdges, Flow.sizeAt, h]
  have hread : (layeredPlaces d)[slot]? = some (d.placeOf (build d).layered[slot].id) := by
    simp [h]
  simp only [Checked.extent?, hread, cell_read _ hmem, Option.bind_eq_bind, Option.bind_some,
    Flow.depth, Flow.half, hsize]
  rfl

theorem layout?_eq (s : LayoutSettings α) (d : Diagram α) :
    layout? s d (groupTable d) (d.marked.map (extentOf s d)) (layeredPlaces d) =
      some (centerTable s d) := by
  unfold layout? centerTable
  split
  · rename_i hempty
    rw [List.isEmpty_iff.mp hempty, List.zip_nil_left]
  · have hids : layeredPlaces d = (build d).layeredIds.map d.placeOf := by
      rw [layeredIds, List.map_map]
      rfl
    have hflow : flow? s (Checked.extent? s (d.marked.map (extentOf s d)) (layeredPlaces d))
          ((build d).layered.map (Fits.sizeOf s ((build d).fits s))).length
          ((build d).slotRoutes d.edges) = some ((planFlow s d).centers s) := by
      refine Flow.flow?_eq fun slot hslot => ?_
      rw [List.length_map] at hslot
      exact extent?_eq hslot
    have hlen : ((build d).layeredIds.map d.placeOf).length = (build d).layered.length := by
      simp [layeredIds]
    rw [List.length_map] at hflow
    rw [hids] at hflow ⊢
    simp only [routes?_eq, slotRoutes_eq, hlen, hflow, Option.bind_eq_bind, Option.bind_some]

theorem planFlow_centers_length :
    ((planFlow s d).centers s).length = (build d).layered.length := by
  rw [Flow.centers_length]
  simp [planFlow, Frames.flow, Flow.ofEdges]

theorem corners_zip : (ofDiagram s d).corners =
    ((build d).layered.zip ((build d).layeredIds.zip ((planFlow s d).centers s))).map fun q =>
      (q.1.id, Grid.snapPoint (cornerOf q.2.2 (Fits.sizeOf s ((build d).fits s) q.1))
        s.gridSize) := rfl

theorem corners_lookup {k : Nat} (hk : k < (build d).layered.length)
    (hcenter : k < ((planFlow s d).centers s).length) :
    (ofDiagram s d).corners.lookup (build d).layered[k].id =
      some (Grid.snapPoint (cornerOf ((planFlow s d).centers s)[k]
        (Fits.sizeOf s ((build d).fits s) (build d).layered[k])) s.gridSize) := by
  have hzip : k < ((build d).layered.zip
      ((build d).layeredIds.zip ((planFlow s d).centers s))).length := by
    simp [layeredIds, hk, hcenter]
  have hkeys : (ofDiagram s d).corners.map (·.1) = (build d).layered.map (·.id) := by
    have hlen : (build d).layered.length ≤
        ((build d).layeredIds.zip ((planFlow s d).centers s)).length := by
      simp [layeredIds, planFlow_centers_length]
    rw [corners_zip, List.map_map]
    conv_rhs => rw [← List.map_fst_zip hlen, List.map_map]
    rfl
  refine lookup_eq_of_mem (hkeys ▸ (build_wellFormed d).layered_nodup) ?_
  rw [corners_zip, List.mem_map]
  exact ⟨_, List.getElem_mem hzip, by simp⟩

theorem center_of_layered (hn : n ∈ (build d).layered) : ∃ center,
    (centerTable s d).lookup (d.placeOf n.id) = some center ∧
      (ofDiagram s d).position n = Grid.snapPoint
        (cornerOf center (Fits.sizeOf s ((build d).fits s) n)) s.gridSize := by
  have hfree := (mem_layered.mp hn).2.2
  obtain ⟨k, hk, rfl⟩ := List.getElem_of_mem hn
  have hcenter : k < ((planFlow s d).centers s).length := by rwa [planFlow_centers_length]
  refine ⟨((planFlow s d).centers s)[k], ?_, ?_⟩
  · have hkeys : (centerTable s d).map (·.1) = layeredPlaces d :=
      List.map_fst_zip (by rw [List.length_map, planFlow_centers_length])
    have hnodup : (layeredPlaces d).Nodup := by
      have hids := (build_wellFormed d).layered_nodup
      rw [List.Nodup, List.pairwise_map] at hids ⊢
      refine hids.imp_of_mem fun {a b} ha hb hne he => hne ?_
      rw [placeOf_inj (mem_layered.mp ha).1 (mem_layered.mp hb).1 he]
    rw [← hkeys] at hnodup
    refine lookup_eq_of_mem hnodup (List.mem_of_getElem? (i := k) ?_)
    rw [List.getElem?_zip_eq_some]
    exact ⟨by simp [hk], List.getElem?_eq_getElem hcenter⟩
  · rw [position, show (ofDiagram s d).frames.parent? (build d).layered[k].id = none from hfree]
    dsimp only
    rw [corners_lookup hk hcenter, Option.getD_some]

theorem placeCorner?_eq (hn : n ∈ (build d).layered) (F : Bool × Node α → Point α) :
    placeCorner? s (d.marked.map (extentOf s d)) (centerTable s d) (d.marked.map F)
        (d.placeOf n.id) =
      some (d.marked.map (changed F n ((ofDiagram s d).position n))) := by
  obtain ⟨center, hlookup, hposition⟩ := center_of_layered (s := s) hn
  have hmem : n ∈ d.elements := (mem_layered.mp hn).1
  simp only [placeCorner?, cell_read _ hmem, hlookup, Option.bind_eq_bind, Option.bind_some,
    cell_write _ hmem, hposition, extentOf, Fits.size, if_true]

theorem position_of_unlayered (hn : n ∈ d.elements) (hlayered : n ∉ (build d).layered) :
    Fits.position s (build d) ((build d).fits s) (true, n) = cell s d (true, n) := by
  simp only [Fits.position, cell, if_true]
  cases hparent : (build d).parent? n.id with
  | none =>
    have htool : n.isTool = true := by
      by_contra htool
      exact hlayered (mem_layered.mpr ⟨hn, by simpa using htool, hparent⟩)
    have hfit := fits_lookup_none s (build_wellFormed d) hn (isGroup_of_isTool htool)
    simp [Fits.offset?, hfit, htool]
  | some p =>
    have htool : n.isTool = false := by
      by_contra htool
      rw [(build_wellFormed d).parent?_of_tool hn (by simpa using htool)] at hparent
      cases hparent
    rw [if_neg (by simp [htool]), position,
      show (ofDiagram s d).frames.parent? n.id = some p from hparent]
    rfl

theorem corners_written (s : LayoutSettings α) (d : Diagram α) :
    (layeredPlaces d).foldlM (placeCorner? s (d.marked.map (extentOf s d)) (centerTable s d))
        (d.marked.map (Fits.position s (build d) ((build d).fits s))) =
      some (d.marked.map (cell s d)) := by
  rw [List.foldlM_map, cells_changed (fun F => d.marked.map F) (fun _ _ => List.map_congr_left) _
    (fun n _ => (ofDiagram s d).position n) (fun n hn => (mem_layered.mp hn).1)
    (build_wellFormed d).layered_nodup fun n hn F => placeCorner?_eq hn F]
  congr 1
  refine List.map_congr_left fun m hm => ?_
  obtain ⟨first, n⟩ := m
  cases first with
  | false => simp [Fits.position, cell]
  | true =>
    have hn : n ∈ d.elements := mem_elements.mpr hm
    have hcontains := contains_id (fun k (hk : k ∈ (build d).layered) => (mem_layered.mp hk).1) hn
    dsimp only
    rw [Bool.true_and]
    by_cases hlayered : n ∈ (build d).layered
    · rw [if_pos (hcontains.mpr hlayered), cell, if_pos rfl,
        if_neg (by simp [(mem_layered.mp hlayered).2.1])]
    · rw [if_neg fun h => hlayered (hcontains.mp h), position_of_unlayered hn hlayered]

def rectOf (s : LayoutSettings α) (d : Diagram α) (m : Bool × Node α) : Option (Rect α) :=
  if m.2.isTool then none
  else if m.1 then some ((ofDiagram s d).rect m.2)
  else some (Rect.ofCorner (Grid.snapPoint m.2.position s.gridSize) (s.footprint m.2))

omit [Scalar α] in
theorem ancestor_group {p : String} (hp : p ∈ (build d).ancestors n.id) :
    ∃ g ∈ d.elements, g.id = p ∧ g.isTool = false := by
  obtain ⟨g, hg, hid, hgroup⟩ := (build_wellFormed d).ancestors_group hp
  exact ⟨g, hg, hid, isTool_of_isGroup hgroup⟩

theorem foldlM_positions (ps : List String)
    (hps : ∀ p ∈ ps, ∃ g ∈ d.elements, g.id = p ∧ g.isTool = false) (own : Point α) :
    (ps.map d.placeOf).foldlM (addPosition? (d.marked.map (cell s d))) own =
      some ((ps.map (ofDiagram s d).positionOf).foldl
        (fun c q => ⟨c.x + q.x, c.y + q.y⟩) own) := by
  induction ps generalizing own with
  | nil => rfl
  | cons p ps ih =>
    obtain ⟨g, hg, rfl, htool⟩ := hps p List.mem_cons_self
    have hfound : (ofDiagram s d).frames.element? g.id = some g :=
      (build_wellFormed d).element?_of_mem hg
    have hcell : cell s d (true, g) = (ofDiagram s d).positionOf g.id := by
      rw [positionOf, hfound, cell, if_pos rfl, if_neg (by simp [htool])]
    rw [List.map_cons, List.foldlM_cons, addPosition?, cell_read _ hg, hcell]
    exact ih (fun p hp => hps p (List.mem_cons_of_mem _ hp)) _

theorem rect?_eq (h : d.marked[i]? = some m) :
    rect? d (groupTable d) (d.marked.map (cell s d)) (d.marked.map (extentOf s d)) (m, i) =
      some (rectOf s d m) := by
  obtain ⟨first, n⟩ := m
  unfold rect? rectOf
  split
  · rfl
  · rename_i htool
    have hposition : (d.marked.map (cell s d))[i]? = some (cell s d (first, n)) := by
      rw [List.getElem?_map, h, Option.map_some]
    have hsize : (d.marked.map (extentOf s d))[i]? = some (extentOf s d (first, n)) := by
      rw [List.getElem?_map, h, Option.map_some]
    cases first with
    | false =>
      have hother : d.first? i = none := by
        rw [first?_of_marked h]
        rfl
      simp only [hposition, hsize, climb?_other hother, Option.bind_eq_bind, Option.bind_some]
      rfl
    | true =>
      have hi := isFirst_of_marked h rfl
      have hclimb := foldlM_positions (s := s) ((build d).ancestors n.id)
        (fun p hp => ancestor_group hp) (cell s d (true, n))
      simp only [hposition, hsize, climb?_frames hi, hclimb, Option.bind_eq_bind, Option.bind_some]
      rw [cell, if_pos rfl, if_neg htool]
      rfl

theorem rects?_eq (s : LayoutSettings α) (d : Diagram α) :
    rects? d (groupTable d) (d.marked.map (cell s d)) (d.marked.map (extentOf s d)) =
      some (d.marked.map (rectOf s d)) :=
  cells_mapM fun _ _ h => rect?_eq h

end Plan

end FlowCanvas
