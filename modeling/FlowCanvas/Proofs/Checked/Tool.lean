import FlowCanvas.Proofs.Arrangement.Mirror
import FlowCanvas.Proofs.Checked.Cell

/-! Tools on checked arrays. The scene is read off the rectangles of the nodes, a tool finds its
anchor at the index of the step, and cells are counted over columns of which there is at least one.
So every tool gets the place that it has in the arrangement. -/

namespace FlowCanvas

variable {α : Type} [Scalar α]

namespace Checked

def divide? (m n : Nat) : Option (Nat × Nat) := if n = 0 then none else some (m / n, m % n)

def shown? (parents : List (Option Nat)) (rects : List (Option (Rect α)))
    (x : (Bool × Node α) × Nat) : Option (Option (Node α × Bool × Rect α)) := do
  let rect ← rects[x.2]?
  some (if x.1.1 then rect.map fun r => (x.1.2, parents[x.2]?.join.isSome, r) else none)

def sceneOf (shown : List (Node α × Bool × Rect α)) : Scene α :=
  let steps := shown.filter (!·.1.isGroup)
  { rects := shown.map fun (n, _, r) => (n.id, r)
    groups := (shown.filter (·.1.isGroup)).map (·.2.2)
    steps := steps.map (·.2.2)
    free := Rect.enclosing? ((steps.filter (!·.2.1)).map (·.2.2)) }

def scene? (d : Diagram α) (parents : List (Option Nat)) (rects : List (Option (Rect α))) :
    Option (Scene α) := do
  let shown ← d.marked.zipIdx.mapM (shown? parents rects)
  some (sceneOf (shown.filterMap id))

def anchorAt? (d : Diagram α) (rects : List (Option (Rect α))) (e : Edge) :
    Option (Option (Rect α)) :=
  match d.index? e.source with
  | none => some none
  | some i => do
    let n ← d.nodes[i]?
    if n.isTool || n.isGroup then some none else rects[i]?

def anchor? (d : Diagram α) (rects : List (Option (Rect α))) (tool : String) :
    List Edge → Option (Option (Rect α))
  | [] => some none
  | e :: rest =>
    if e.kind = .tool && e.target == tool then do
      let anchor ← anchorAt? d rects e
      match anchor with
      | some r => some (some r)
      | none => anchor? d rects tool rest
    else anchor? d rects tool rest

variable (scene : Scene α) (s : LayoutSettings α)

def cell? (k : Nat) : Option (Point α) := do
  let (row, column) ← divide? k (max s.tools.fallbackColumns 1)
  let o := scene.fallbackOrigin s
  some (Grid.snapPoint
    ⟨o.x + Scalar.ofNat column * (s.toolWidth + s.tools.separation),
      o.y + Scalar.ofNat row * (s.toolHeight + s.tools.separation)⟩ s.gridSize)

def freeCell? (placed : List (Rect α)) : Nat → Nat → Option (Option (Point α) × Nat)
  | 0, k => some (none, k)
  | attempts + 1, k => do
    let p ← cell? scene s k
    let r := Rect.ofCorner p s.toolSize
    if scene.blocked r || placed.any r.intersects then freeCell? placed attempts (k + 1)
    else some (some p, k + 1)

def seat? (d : Diagram α) (rects : List (Option (Rect α))) (placed : List (Rect α)) (k tool : Nat) :
    Option (ToolPlace α × Nat) := do
  let n ← d.nodes[tool]?
  let anchor ← anchor? d rects n.id d.edges
  let slot := anchor.bind fun r =>
    (Scene.anchorSlots s r).find? fun p => !scene.overGroup (Rect.ofCorner p s.toolSize)
  match slot with
  | some p => some (⟨n.id, .anchor, p⟩, k)
  | none => do
    let (free, k) ← freeCell? scene s placed s.tools.fallbackAttempts k
    match free with
    | some p => some (⟨n.id, .cell, p⟩, k)
    | none => some (⟨n.id, .beyond, scene.beyond s placed (scene.fallbackOrigin s).y⟩, k)

def seats? (d : Diagram α) (rects : List (Option (Rect α))) (placed : List (Rect α)) (k : Nat) :
    List Nat → Option (List (ToolPlace α))
  | [] => some []
  | tool :: rest => do
    let (place, k) ← seat? scene s d rects placed k tool
    let places ← seats? d rects (placed ++ [Rect.ofCorner place.position s.toolSize]) k rest
    some (place :: places)

def placeTools? (d : Diagram α) (rects : List (Option (Rect α))) :
    Option (List (Nat × Point α)) := do
  let tools := indices d fun n _ => n.isTool
  let places ← seats? scene s d rects [] 0 tools
  some (tools.zip ((scene.settleAll s [] places).map (·.position)))

end Checked

open Checked

namespace Scene

variable {scene : Scene α} {s : LayoutSettings α}

theorem cell?_eq (k : Nat) : cell? scene s k = some (scene.cell s k) := by
  have hcolumns : max s.tools.fallbackColumns 1 ≠ 0 := by omega
  rw [cell?, divide?, if_neg hcolumns]
  rfl

theorem freeCell?_eq (placed : List (Rect α)) (attempts k : Nat) :
    Checked.freeCell? scene s placed attempts k = some (scene.freeCell? s placed attempts k) := by
  induction attempts generalizing k with
  | zero => rfl
  | succ attempts ih =>
    rw [Checked.freeCell?, freeCell?, cell?_eq, Option.bind_eq_bind, Option.bind_some]
    dsimp only
    split
    · exact ih (k + 1)
    · rfl

end Scene

namespace Plan

open Frames Diagram

variable {s : LayoutSettings α} {d : Diagram α} {n : Node α} {F : Bool × Node α → Option (Rect α)}

def Shows (s : LayoutSettings α) (d : Diagram α) (F : Bool × Node α → Option (Rect α)) : Prop :=
  ∀ n ∈ d.elements, F (true, n) = if n.isTool then none else some ((ofDiagram s d).rect n)

theorem scene_of_shown (s : LayoutSettings α) (d : Diagram α) :
    sceneOf ((d.elements.filter (!·.isTool)).map fun n =>
      (n, (build d).isGrouped n.id, (ofDiagram s d).rect n)) = (ofDiagram s d).scene := by
  simp only [sceneOf, scene, List.filter_map, List.map_map]
  rfl

theorem scene?_eq (hF : Shows s d F) :
    scene? d (groupTable d) (d.marked.map F) = some (ofDiagram s d).scene := by
  have hshown : d.marked.zipIdx.mapM (shown? (groupTable d) (d.marked.map F)) =
      some (d.marked.map fun m =>
        if m.1 then (F m).map fun r => (m.2, (build d).isGrouped m.2.id, r) else none) := by
    refine cells_mapM fun i m hm => ?_
    have hread : (d.marked.map F)[i]? = some (F m) := by rw [List.getElem?_map, hm, Option.map_some]
    rw [shown?, hread, link_read hm, Option.bind_eq_bind, Option.bind_some]
    cases m.1 with
    | false => rfl
    | true => simp [isGrouped]
  rw [scene?, hshown, Option.bind_eq_bind, Option.bind_some, ← scene_of_shown]
  congr 2
  rw [List.filterMap_map, Diagram.elements, List.filter_filterMap, List.map_filterMap]
  refine List.filterMap_congr fun m hm => ?_
  obtain ⟨first, n⟩ := m
  cases first with
  | false => rfl
  | true =>
    have hn := hF n (mem_elements.mpr hm)
    cases htool : n.isTool <;> simp [hn, htool, Option.filter]

theorem anchorAt?_eq (hF : Shows s d F) (e : Edge) :
    anchorAt? d (d.marked.map F) e = some (((build d).element? e.source).bind fun n =>
      if n.isTool || n.isGroup then none else (ofDiagram s d).scene.rects.lookup e.source) := by
  cases hindex : d.index? e.source with
  | none =>
    rw [anchorAt?, hindex, element?_eq_none hindex, Option.bind_none]
  | some i =>
    obtain ⟨n, hi, hid⟩ := index?_eq_some.mp hindex
    have hfound : (build d).element? e.source = some n :=
      (build_wellFormed d).element?_eq_some.mpr ⟨hi.mem, hid⟩
    have hread : (d.marked.map F)[i]? = some (F (true, n)) := by
      rw [List.getElem?_map, hi.marked, Option.map_some]
    simp only [anchorAt?, hindex, hi.1, hfound, hread, Option.bind_eq_bind, Option.bind_some]
    cases htool : n.isTool with
    | true => rfl
    | false =>
      cases hgroup : n.isGroup with
      | true => rfl
      | false => simp [hF n hi.mem, htool, ← hid, scene_rect s (mem_plain.mpr ⟨hi.mem, htool⟩)]

theorem anchor?_eq (hF : Shows s d F) (tool : String) (edges : List Edge) :
    Checked.anchor? d (d.marked.map F) tool edges =
      some ((ofDiagram s d).scene.anchor? (build d) edges tool) := by
  induction edges with
  | nil => rfl
  | cons e rest ih =>
    rw [Checked.anchor?, Scene.anchor?, List.filter_cons]
    split
    · rw [anchorAt?_eq hF, Option.bind_eq_bind, Option.bind_some, List.findSome?_cons]
      split
      · rename_i r hr
        rw [hr]
      · rename_i hr
        rw [hr]
        exact ih
    · exact ih

theorem seat?_eq (hF : Shows s d F) (placed : List (Rect α)) (k : Nat) (hn : n ∈ d.elements) :
    seat? (ofDiagram s d).scene s d (d.marked.map F) placed k (d.placeOf n.id) =
      some ((ofDiagram s d).scene.seat s (build d) d.edges placed k n.id) := by
  simp only [seat?, (isFirst_placeOf hn).1, anchor?_eq hF, Scene.freeCell?_eq,
    Option.bind_eq_bind, Option.bind_some, Scene.seat, Scene.anchored?]
  generalize ((ofDiagram s d).scene.anchor? (build d) d.edges n.id).bind (fun r =>
    (Scene.anchorSlots s r).find? fun p =>
      !(ofDiagram s d).scene.overGroup (Rect.ofCorner p s.toolSize)) = slot
  cases slot with
  | some p => rfl
  | none =>
    dsimp only
    generalize (ofDiagram s d).scene.freeCell? s placed s.tools.fallbackAttempts k = found
    obtain ⟨free, k⟩ := found
    cases free <;> rfl

theorem seats?_eq (hF : Shows s d F) (placed : List (Rect α)) (k : Nat) (tools : List (Node α))
    (htools : ∀ n ∈ tools, n ∈ d.elements) :
    seats? (ofDiagram s d).scene s d (d.marked.map F) placed k
        (tools.map fun n => d.placeOf n.id) =
      some ((ofDiagram s d).scene.seats s (build d) d.edges placed k (tools.map (·.id))) := by
  induction tools generalizing placed k with
  | nil => rfl
  | cons n tools ih =>
    rw [List.map_cons, List.map_cons, seats?, seat?_eq hF placed k (htools n List.mem_cons_self),
      Option.bind_eq_bind, Option.bind_some]
    dsimp only
    rw [ih _ _ fun m hm => htools m (List.mem_cons_of_mem _ hm)]
    rfl

theorem zip_places (ns : List (Node α)) (places : List (ToolPlace α))
    (hids : places.map (·.id) = ns.map (·.id)) (hnodup : (ns.map (·.id)).Nodup) :
    (ns.map fun n => d.placeOf n.id).zip (places.map (·.position)) = ns.map fun n =>
      (d.placeOf n.id, ((places.find? (·.id == n.id)).map (·.position)).getD Point.origin) := by
  induction ns generalizing places with
  | nil => rfl
  | cons n ns ih =>
    cases places with
    | nil => cases hids
    | cons t places =>
      obtain ⟨hid, hids⟩ := List.cons.inj hids
      obtain ⟨hn, hnodup⟩ := List.nodup_cons.mp hnodup
      rw [List.map_cons, List.map_cons, List.zip_cons_cons, ih places hids hnodup, List.map_cons]
      congr 1
      · simp [hid]
      · -- The place of this tool is that of no other one.
        refine List.map_congr_left fun m hm => ?_
        have hne : (t.id == m.id) = false := by
          rw [beq_eq_false_iff_ne, show t.id = n.id from hid]
          exact fun he => hn (List.mem_map.mpr ⟨m, hm, he.symm⟩)
        rw [List.find?_cons, hne]

def toolPosition (s : LayoutSettings α) (d : Diagram α) (n : Node α) : Point α :=
  ((((ofDiagram s d).scene.placeTools s (build d) d.edges).find? (·.id == n.id)).map
    (·.position)).getD Point.origin

theorem placeTools?_eq (hF : Shows s d F) :
    placeTools? (ofDiagram s d).scene s d (d.marked.map F) =
      some ((build d).tools.map fun n => (d.placeOf n.id, toolPosition s d n)) := by
  have htools : indices d (fun n _ => n.isTool) = (build d).tools.map fun n => d.placeOf n.id :=
    indices_eq fun _ _ _ => rfl
  rw [placeTools?, htools, seats?_eq hF [] 0 (build d).tools fun n hn => List.mem_of_mem_filter hn,
    Option.bind_eq_bind, Option.bind_some]
  congr 1
  exact zip_places _ _ (Scene.placeTools_ids _ s (build d) d.edges)
    ((build_wellFormed d).nodup.sublist (List.filter_sublist.map _))

end Plan

end FlowCanvas
