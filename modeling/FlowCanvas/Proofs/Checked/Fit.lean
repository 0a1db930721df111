import FlowCanvas.Proofs.Checked.Cell
import FlowCanvas.Proofs.Fit.Fixpoint

/-! Fitting groups on checked arrays. Positions and sizes have a cell for every node. A group is
fitted to the cells of its children; then the children are moved one way and the group the other
way, and its size is written. As the groups inside come first, the cells always are those that the
fits found so far give, and in the end those of the final fits. -/

namespace FlowCanvas

variable {α : Type} [Scalar α]

namespace Checked

structure Canvas (α : Type) where
  positions : List (Point α)
  sizes : List (Size α)

def start (s : LayoutSettings α) (d : Diagram α) (parents : List (Option Nat)) : Canvas α where
  positions := d.marked.zipIdx.map fun x =>
    if parents[x.2]?.join.isSome || !x.1.1 then Grid.snapPoint x.1.2.position s.gridSize
    else x.1.2.position
  sizes := d.marked.map fun m => s.footprint m.2

def groups? (d : Diagram α) (parents : List (Option Nat)) : Option (List Nat) := do
  let keyed ← (indices d fun n _ => n.isGroup).mapM fun i => do
    let above ← climb? parents d.nodes.length i
    some (above.length, i)
  some ((keyed.mergeSort fun a b => b.1 ≤ a.1).map (·.2))

def childRect? (c : Canvas α) (i : Nat) : Option (Rect α) := do
  let size ← c.sizes[i]?
  let position ← c.positions[i]?
  some (Rect.ofCorner position size)

def applyFit? (c : Canvas α) (inside : List Nat) (group : Nat) (fit : Fit α) :
    Option (Canvas α) := do
  let sizes ← write? c.sizes group fit.size
  match fit.offset with
  | none => some { c with sizes := sizes }
  | some o => do
    let positions ← inside.foldlM
      (fun positions i => modify? positions i fun p => ⟨p.x - o.x, p.y - o.y⟩) c.positions
    let positions ← modify? positions group fun p => ⟨p.x + o.x, p.y + o.y⟩
    some ⟨positions, sizes⟩

def fitGroup? (s : LayoutSettings α) (children : List (List Nat)) (c : Canvas α) (group : Nat) :
    Option (Canvas α) := do
  let inside := children[group]?.getD []
  let rects ← inside.mapM (childRect? c)
  applyFit? c inside group (Fits.around s rects)

def fit? (s : LayoutSettings α) (d : Diagram α) (parents : List (Option Nat))
    (children : List (List Nat)) : Option (Canvas α) := do
  let groups ← groups? d parents
  groups.foldlM (fitGroup? s children) (start s d parents)

end Checked

open Checked

namespace Fits

variable (s : LayoutSettings α) (f : Frames α) (fits : Fits α)

def position (m : Bool × Node α) : Point α :=
  if m.1 then
    match f.parent? m.2.id with
    | some group => positionInGroup s fits group m.2
    | none =>
      match offset? fits m.2.id with
      | some o => ⟨m.2.position.x + o.x, m.2.position.y + o.y⟩
      | none => m.2.position
  else Grid.snapPoint m.2.position s.gridSize

def size (m : Bool × Node α) : Size α := if m.1 then sizeOf s fits m.2 else s.footprint m.2

def canvas (d : Diagram α) : Canvas α :=
  ⟨d.marked.map (position s (Frames.build d) fits), d.marked.map (size s fits)⟩

end Fits

namespace Frames

open Diagram

variable {s : LayoutSettings α} {d : Diagram α} {fits : Fits α} {g n : Node α} {i : Nat}

theorem start_eq : start s d (groupTable d) = Fits.canvas s [] d := by
  rw [start, Fits.canvas]
  congr 1
  · refine cells_map fun i m hm => ?_
    rw [link_read hm, Fits.position]
    cases hfirst : m.1 with
    | false => simp
    | true =>
      cases (build d).parent? m.2.id with
      | none => simp [Fits.offset?]
      | some p => simp [Fits.positionInGroup, Fits.moved, Fits.offset?]
  · refine List.map_congr_left fun m _ => ?_
    cases hfirst : m.1 <;> simp [Fits.size, Fits.sizeOf, hfirst]

omit [Scalar α] in
theorem groups?_eq (d : Diagram α) : groups? d (groupTable d) =
    some ((build d).groupsInward.map fun n => d.placeOf n.id) := by
  have hkeyed : ((d.elements.filter (·.isGroup)).map fun n => d.placeOf n.id).mapM (fun i => do
      let above ← climb? (groupTable d) d.nodes.length i
      some (above.length, i)) = some ((d.elements.filter (·.isGroup)).map fun n =>
        ((build d).depth n.id, d.placeOf n.id)) := by
    rw [List.mapM_map]
    refine mapM_some fun n hn => ?_
    have hplace := isFirst_placeOf (List.mem_of_mem_filter hn)
    simp [climb?_frames hplace, depth]
  have hsort : ((d.elements.filter (·.isGroup)).map fun n =>
      ((build d).depth n.id, d.placeOf n.id)).mergeSort (fun a b => b.1 ≤ a.1) =
        (build d).groupsInward.map fun n => ((build d).depth n.id, d.placeOf n.id) :=
    (List.map_mergeSort (s := fun a b => decide (b.1 ≤ a.1))
      (f := fun n : Node α => ((build d).depth n.id, d.placeOf n.id)) fun _ _ _ _ => rfl).symm
  have hindices : indices d (fun n _ => n.isGroup) =
      (d.elements.filter (·.isGroup)).map fun n => d.placeOf n.id := indices_eq fun _ _ _ => rfl
  rw [groups?, hindices, hkeyed, Option.bind_eq_bind, Option.bind_some, hsort,
    List.map_map]
  rfl

omit [Scalar α] in
theorem children_read (hg : g ∈ d.elements) :
    (childTable d)[d.placeOf g.id]?.getD [] =
      ((build d).children g.id).map fun n => d.placeOf n.id := by
  have hplace := isFirst_placeOf hg
  rw [table_read hplace.lt, Option.getD_some, childrenAt, first?_eq_some.mpr hplace,
    ← List.filterMap_eq_map]
  refine List.filterMap_congr fun n hn => ?_
  exact (isFirst_placeOf (mem_children _ |>.mp hn).1).index?_eq

theorem sizes_cons (s : LayoutSettings α) (d : Diagram α) (fits : Fits α) (g : Node α)
    (fit : Fit α) : d.marked.map (changed (Fits.size s fits) g fit.size) =
      d.marked.map (Fits.size s ((g.id, fit) :: fits)) := by
  refine List.map_congr_left fun m _ => ?_
  obtain ⟨first, n⟩ := m
  by_cases hn : n.id = g.id
  · cases first <;> simp [changed, Fits.size, Fits.sizeOf, hn]
  · have hne : (n.id == g.id) = false := by simpa using hn
    cases first <;> simp [changed, Fits.size, Fits.sizeOf, hne, List.lookup_cons]

omit [Scalar α] in
theorem offset?_cons (fits : Fits α) (id : String) (fit : Fit α) (other : String) :
    Fits.offset? ((id, fit) :: fits) other =
      if other = id then fit.offset else Fits.offset? fits other := by
  rw [Fits.offset?, List.lookup_cons]
  by_cases hid : other = id
  · simp [hid]
  · have hne : (other == id) = false := by simpa using hid
    simp [hne, hid, Fits.offset?]

theorem moved_positions (o : Point α) :
    (((build d).children g.id).map fun n => d.placeOf n.id).foldlM
        (fun positions i => modify? positions i fun p => ⟨p.x - o.x, p.y - o.y⟩)
        (d.marked.map (Fits.position s (build d) fits)) =
      some (d.marked.map fun m =>
        if m.1 && (((build d).children g.id).map (·.id)).contains m.2.id then
          ⟨(Fits.position s (build d) fits m).x - o.x, (Fits.position s (build d) fits m).y - o.y⟩
        else Fits.position s (build d) fits m) := by
  rw [List.foldlM_map]
  refine cells_changed (fun F => d.marked.map F) (fun _ _ => List.map_congr_left) _
    (fun _ p => (⟨p.x - o.x, p.y - o.y⟩ : Point α)) (fun n hn => ((mem_children _).mp hn).1)
    ((build_wellFormed d).nodup.sublist (List.filter_sublist.map _)) (fun n hn F => ?_)
    (Fits.position s (build d) fits)
  exact cell_modify F ((mem_children _).mp hn).1 _

structure Awaits (d : Diagram α) (fits : Fits α) (g : Node α) : Prop where
  element : g ∈ d.elements
  unfitted : fits.lookup g.id = none
  parent_unfitted : ∀ p, (build d).parent? g.id = some p → fits.lookup p = none

namespace Awaits

variable (h : Awaits d fits g)

include h

omit [Scalar α] in
theorem offset?_eq_none : Fits.offset? fits g.id = none := by
  rw [Fits.offset?, h.unfitted, Option.bind_none]

theorem rects_eq : (((build d).children g.id).map fun n => d.placeOf n.id).mapM
    (childRect? (Fits.canvas s fits d)) =
      some (((build d).children g.id).map (Fits.childRect s fits)) := by
  rw [List.mapM_map]
  refine mapM_some fun n hn => ?_
  obtain ⟨hmem, hparent⟩ := (mem_children _).mp hn
  simp only [Function.comp_apply, childRect?, Fits.canvas, cell_read _ hmem, Option.bind_eq_bind,
    Option.bind_some, Fits.position, Fits.size, hparent, Fits.positionInGroup, h.offset?_eq_none,
    if_true]
  rfl

theorem positions_cons_none {fit : Fit α} (hfit : fit.offset = none) :
    d.marked.map (Fits.position s (build d) fits) =
      d.marked.map (Fits.position s (build d) ((g.id, fit) :: fits)) := by
  have hoffset : Fits.offset? ((g.id, fit) :: fits) = Fits.offset? fits := by
    funext id
    rw [offset?_cons]
    split
    · rename_i hid
      rw [hfit, hid, h.offset?_eq_none]
    · rfl
  refine List.map_congr_left fun m _ => ?_
  simp only [Fits.position, Fits.positionInGroup, Fits.moved, hoffset]

theorem position_cons_self {fit : Fit α} {o : Point α} (hfit : fit.offset = some o) :
    Fits.position s (build d) ((g.id, fit) :: fits) (true, g) =
      ⟨(Fits.position s (build d) fits (true, g)).x + o.x,
        (Fits.position s (build d) fits (true, g)).y + o.y⟩ := by
  simp only [Fits.position, if_true]
  cases hparent : (build d).parent? g.id with
  | none => simp [offset?_cons, hfit, h.offset?_eq_none]
  | some p =>
    have hne : p ≠ g.id := by
      rintro rfl
      have hdepth := (build_wellFormed d).depth_of_parent hparent
      omega
    have hnone : Fits.offset? fits p = none := by
      rw [Fits.offset?, h.parent_unfitted p hparent, Option.bind_none]
    simp [Fits.positionInGroup, Fits.moved, offset?_cons, hfit, hne, hnone, h.offset?_eq_none]

theorem position_cons_other {fit : Fit α} {o : Point α} (hfit : fit.offset = some o)
    (hn : n.id ≠ g.id) : Fits.position s (build d) ((g.id, fit) :: fits) (true, n) =
      if (build d).parent? n.id = some g.id then
        ⟨(Fits.position s (build d) fits (true, n)).x - o.x,
          (Fits.position s (build d) fits (true, n)).y - o.y⟩
      else Fits.position s (build d) fits (true, n) := by
  simp only [Fits.position, if_true]
  cases hparent : (build d).parent? n.id with
  | none => simp [offset?_cons, hn]
  | some p =>
    by_cases hp : p = g.id
    · subst hp
      simp [Fits.positionInGroup, Fits.moved, offset?_cons, hfit, hn, h.offset?_eq_none]
    · simp [Fits.positionInGroup, Fits.moved, offset?_cons, hn, hp]

theorem positions_cons {fit : Fit α} {o : Point α} (hfit : fit.offset = some o) :
    d.marked.map (changed (fun m =>
        if m.1 && (((build d).children g.id).map (·.id)).contains m.2.id then
          ⟨(Fits.position s (build d) fits m).x - o.x, (Fits.position s (build d) fits m).y - o.y⟩
        else Fits.position s (build d) fits m) g
      ⟨(Fits.position s (build d) fits (true, g)).x + o.x,
        (Fits.position s (build d) fits (true, g)).y + o.y⟩) =
      d.marked.map (Fits.position s (build d) ((g.id, fit) :: fits)) := by
  refine List.map_congr_left fun m hm => ?_
  obtain ⟨first, n⟩ := m
  cases first with
  | false => simp [changed, Fits.position]
  | true =>
    have hn : n ∈ d.elements := mem_elements.mpr hm
    by_cases hid : n.id = g.id
    · obtain rfl := (build_wellFormed d).eq_of_id hn h.element hid
      rw [h.position_cons_self hfit]
      simp [changed]
    · have hchild : (((build d).children g.id).map (·.id)).contains n.id = true ↔
          (build d).parent? n.id = some g.id := by
        rw [contains_id (fun n hn => ((mem_children _).mp hn).1) hn]
        exact (mem_children _).trans (and_iff_right hn)
      have hnot : ¬ (true && n.id == g.id) = true := by simpa using hid
      rw [h.position_cons_other hfit hid, changed, if_neg hnot, Bool.true_and]
      simp only [hchild]

theorem applyFit?_eq (fit : Fit α) : applyFit? (Fits.canvas s fits d)
    (((build d).children g.id).map fun n => d.placeOf n.id) (d.placeOf g.id) fit =
      some (Fits.canvas s ((g.id, fit) :: fits) d) := by
  have hsizes : write? (d.marked.map (Fits.size s fits)) (d.placeOf g.id) fit.size =
      some (d.marked.map (Fits.size s ((g.id, fit) :: fits))) := by
    rw [cell_write _ h.element, sizes_cons]
  cases hoffset : fit.offset with
  | none =>
    simp only [applyFit?, Fits.canvas, hsizes, hoffset, Option.bind_eq_bind, Option.bind_some,
      h.positions_cons_none hoffset]
  | some o =>
    have hself : (((build d).children g.id).map (·.id)).contains g.id = false := by
      rw [← Bool.not_eq_true, List.contains_iff_mem, List.mem_map]
      rintro ⟨c, hc, hcg⟩
      have hdepth := (build_wellFormed d).depth_of_parent ((mem_children _).mp hc).2
      rw [hcg] at hdepth
      omega
    simp only [applyFit?, Fits.canvas, hsizes, hoffset, Option.bind_eq_bind, Option.bind_some,
      moved_positions, cell_modify _ h.element, hself, Bool.and_false, Bool.false_eq_true,
      if_false]
    rw [h.positions_cons hoffset]

theorem fitGroup?_eq : fitGroup? s (childTable d) (Fits.canvas s fits d)
    (d.placeOf g.id) = some (Fits.canvas s (addFit (build d) s fits g) d) := by
  rw [fitGroup?, children_read h.element, h.rects_eq, Option.bind_eq_bind, Option.bind_some,
    h.applyFit?_eq]
  rfl

end Awaits

theorem awaits_of_split {done rest : List (Node α)} (s : LayoutSettings α)
    (hsplit : (build d).groupsInward = done ++ g :: rest) :
    Awaits d (done.foldl (addFit (build d) s) []) g := by
  have hf := build_wellFormed d
  have hnodup := groupsInward_nodup hf
  have hsorted := (build d).groupsInward_sorted
  have hg : g ∈ (build d).groupsInward := by simp [hsplit]
  rw [hsplit, List.map_append] at hnodup
  rw [hsplit] at hsorted
  refine ⟨((build d).mem_groupsInward.mp hg).1, ?_, ?_⟩
  · refine foldl_addFit_of_not_mem (build d) s (fun hm => ?_) []
    exact (List.nodup_append.mp hnodup).2.2 _ hm _ (by simp) rfl
  · intro p hp
    refine foldl_addFit_of_not_mem (build d) s (fun hm => ?_) []
    -- What is fitted before a group is no less deep, unlike the group that it is in.
    obtain ⟨k, hk, rfl⟩ := List.mem_map.mp hm
    have hle := (List.pairwise_append.mp hsorted).2.2 k hk g List.mem_cons_self
    rw [hf.depth_of_parent hp] at hle
    omega

theorem fit?_eq (s : LayoutSettings α) (d : Diagram α) :
    fit? s d (groupTable d) (childTable d) = some (Fits.canvas s ((build d).fits s) d) := by
  obtain ⟨canvas, hrun, rfl⟩ := foldlM_run
    (fun canvas g => fitGroup? s (childTable d) canvas (d.placeOf g.id))
    (fun done canvas => canvas = Fits.canvas s (done.foldl (addFit (build d) s) []) d)
    (build d).groupsInward (Fits.canvas s [] d) rfl (by
      rintro done g rest canvas hsplit rfl
      refine ⟨_, (awaits_of_split s hsplit).fitGroup?_eq, ?_⟩
      rw [List.foldl_append]
      rfl)
  rw [fit?, groups?_eq, Option.bind_eq_bind, Option.bind_some, List.foldlM_map, start_eq]
  exact hrun

end Frames

end FlowCanvas
