import FlowCanvas.Proofs.Arrangement.Box
import FlowCanvas.Proofs.Arrangement.Mirror
import FlowCanvas.Proofs.Tool.Fallback

/-! Where tools without an anchor go. A tool hangs off the first step that a tool edge joins it to.
If there is none, or a group is in the way at each place around it, the tool stands to the right of
the steps in no group and not above them, whatever happens to it on the way to its place. -/

namespace FlowCanvas

namespace Diagram

open Frames

variable (s : LayoutSettings Rat) (d : Diagram Rat)

/-- The step that a tool hangs off: the source of its first tool edge that comes from a step. -/
def hangsOff? (tool : String) : Option (Node Rat) :=
  (d.edges.filter fun e => e.kind = .tool && e.target == tool).findSome? fun e =>
    ((build d).element? e.source).filter fun n => !(n.isTool || n.isGroup)

/-- A tool that hangs off no step, or off a step around which a group is in the way everywhere. -/
def Unanchored (tool : String) : Prop :=
  ∀ m b, d.hangsOff? tool = some m → (d.arrange s).box? m.id = some b →
    ∀ p ∈ Scene.anchorSlots s b.rect, ∃ g ∈ d.elements, g.isGroup = true ∧
      ∃ c, (d.arrange s).box? g.id = some c ∧
        (Rect.ofCorner p s.toolSize).intersects c.rect = true

def freeSteps : List (Node Rat) :=
  (build d).plain.filter fun n => !(build d).isGrouped n.id && !n.isGroup

/-- What tools without an anchor are put to the right of: the steps in no group, or all steps and
groups if every step is in a group. -/
def fallbackContent : List (Node Rat) :=
  if (freeSteps d).isEmpty then (build d).plain else freeSteps d

def rectsOf (ns : List (Node Rat)) : List (Rect Rat) :=
  ns.filterMap fun n => ((d.arrange s).box? n.id).map (·.rect)

variable {d}

theorem fallbackContent_plain {n : Node Rat} (hn : n ∈ fallbackContent d) :
    n ∈ (build d).plain := by
  unfold fallbackContent at hn
  split at hn
  · exact hn
  · exact List.mem_of_mem_filter hn

theorem box?_of_plain {n : Node Rat} (hn : n ∈ (build d).plain) :
    (d.arrange s).box? n.id =
      some ⟨n.id, n.kind, (build d).parent? n.id, (Plan.ofDiagram s d).rect n⟩ := by
  obtain ⟨hmem, htool⟩ := mem_plain.mp hn
  rw [box?_of_element s d hmem, Plan.outcome_box_of_plain s d htool]

theorem rectsOf_plain {ns : List (Node Rat)} (h : ∀ n ∈ ns, n ∈ (build d).plain) :
    rectsOf s d ns = ns.map (Plan.ofDiagram s d).rect := by
  rw [rectsOf, ← List.filterMap_eq_map]
  refine List.filterMap_congr fun n hn => ?_
  rw [box?_of_plain s (h n hn)]
  rfl

theorem mem_content {r : Rect Rat} :
    r ∈ (Plan.ofDiagram s d).scene.groups ++ (Plan.ofDiagram s d).scene.steps ↔
      r ∈ (build d).plain.map (Plan.ofDiagram s d).rect := by
  rw [Plan.scene_eq, List.mem_append, List.mem_map, List.mem_map, List.mem_map]
  constructor
  · rintro (⟨n, hn, rfl⟩ | ⟨n, hn, rfl⟩)
    · exact ⟨n, List.mem_of_mem_filter hn, rfl⟩
    · exact ⟨n, List.mem_of_mem_filter hn, rfl⟩
  · rintro ⟨n, hn, rfl⟩
    cases hgroup : n.isGroup with
    | true => exact Or.inl ⟨n, List.mem_filter.mpr ⟨hn, hgroup⟩, rfl⟩
    | false => exact Or.inr ⟨n, List.mem_filter.mpr ⟨hn, by rw [hgroup, Bool.not_false]⟩, rfl⟩

theorem fallbackBounds_eq : (Plan.ofDiagram s d).scene.fallbackBounds =
    (Rect.enclosing? (rectsOf s d (fallbackContent d))).getD Rect.empty := by
  have hfree : (Plan.ofDiagram s d).scene.free =
      Rect.enclosing? ((freeSteps d).map (Plan.ofDiagram s d).rect) := by
    rw [Plan.scene_eq]
    rfl
  have hall : (Plan.ofDiagram s d).scene.bounds? =
      Rect.enclosing? ((build d).plain.map (Plan.ofDiagram s d).rect) :=
    Rect.enclosing?_congr fun r => mem_content s
  rw [Scene.fallbackBounds, rectsOf_plain s fun n => fallbackContent_plain, hfree, hall,
    fallbackContent]
  cases freeSteps d <;> rfl

theorem exists_bounds (h : ∃ n ∈ d.elements, n.isTool = false) :
    ∃ b, Rect.enclosing? (rectsOf s d (fallbackContent d)) = some b := by
  refine Option.ne_none_iff_exists'.mp fun hnone => ?_
  rw [Rect.enclosing?_eq_none, rectsOf_plain s fun n => fallbackContent_plain, List.map_eq_nil_iff,
    fallbackContent] at hnone
  split at hnone
  · obtain ⟨n, hn, htool⟩ := h
    exact List.not_mem_nil (hnone ▸ mem_plain.mpr ⟨hn, htool⟩)
  · rename_i hsteps
    exact hsteps (List.isEmpty_iff.mpr hnone)

theorem scene_covered {b : Rect Rat}
    (hb : Rect.enclosing? (rectsOf s d (fallbackContent d)) = some b) :
    (Plan.ofDiagram s d).scene.Covered := by
  obtain ⟨r, hr, hright⟩ := (Rect.enclosing?_stop hb).1.1
  rw [rectsOf_plain s fun n => fallbackContent_plain] at hr
  obtain ⟨n, hn, rfl⟩ := List.mem_map.mp hr
  refine ⟨_, (mem_content s).mpr (List.mem_map_of_mem (fallbackContent_plain hn)), ?_⟩
  rw [fallbackBounds_eq, hb, Option.getD_some, hright]

theorem anchor?_eq (tool : String) :
    (Plan.ofDiagram s d).scene.anchor? (build d) d.edges tool =
      (d.hangsOff? tool).map (Plan.ofDiagram s d).rect := by
  rw [Scene.anchor?, hangsOff?, List.map_findSome?]
  congr 1
  funext e
  rw [Function.comp_apply]
  cases hn : (build d).element? e.source with
  | none => rfl
  | some n =>
    obtain ⟨hmem, hid⟩ := (build_wellFormed d).element?_eq_some.mp hn
    rw [Option.bind_some, Option.filter_some]
    cases htool : n.isTool with
    | true => rfl
    | false =>
      cases n.isGroup with
      | true => rfl
      | false => simp [← hid, Plan.scene_rect s (mem_plain.mpr ⟨hmem, htool⟩)]

theorem hangsOff?_plain {tool : String} {m : Node Rat} (h : d.hangsOff? tool = some m) :
    m ∈ (build d).plain := by
  obtain ⟨e, -, he⟩ := List.exists_of_findSome?_eq_some h
  obtain ⟨hm, hstep⟩ := Option.filter_eq_some_iff.mp he
  rw [Bool.not_eq_true', Bool.or_eq_false_iff] at hstep
  exact mem_plain.mpr ⟨((build_wellFormed d).element?_eq_some.mp hm).1, hstep.1⟩

theorem anchored?_of_unanchored {tool : String} (h : Unanchored s d tool) :
    (Plan.ofDiagram s d).scene.anchored? s (build d) d.edges tool = none := by
  rw [Scene.anchored?, anchor?_eq]
  cases hm : d.hangsOff? tool with
  | none => rfl
  | some m =>
    rw [Option.map_some, Option.bind_some, List.find?_eq_none]
    intro p hp
    obtain ⟨g, hg, hgroup, c, hc, hover⟩ := h m _ hm (box?_of_plain s (hangsOff?_plain hm)) p hp
    rw [box?_of_plain s (mem_plain.mpr ⟨hg, isTool_of_isGroup hgroup⟩)] at hc
    cases hc
    have hblocked : (Plan.ofDiagram s d).scene.overGroup (Rect.ofCorner p s.toolSize) = true :=
      List.any_eq_true.mpr ⟨_, rect_mem_groups s d hg hgroup, hover⟩
    rw [hblocked]
    exact Bool.false_ne_true

/-- Tools without an anchor stay to the right of the steps in no group, or of all steps and groups
if every step is in a group, by the gap and up to the grid, and they are not above them. -/
theorem unanchored_right (hgrid : 0 < s.gridSize)
    (hwidth : 0 ≤ s.toolWidth + s.tools.separation)
    (hheight : 0 ≤ s.toolHeight + s.tools.separation)
    (hcontent : ∃ n ∈ d.elements, n.isTool = false) :
    ∃ bounds, Rect.enclosing? (rectsOf s d (fallbackContent d)) = some bounds ∧
      ∀ n ∈ d.elements, n.isTool = true → Unanchored s d n.id →
        ∃ b, (d.arrange s).box? n.id = some b ∧
          Grid.snapUp (bounds.right + s.tools.gap) s.gridSize ≤ b.rect.x ∧
            Grid.snap bounds.y s.gridSize ≤ b.rect.y := by
  obtain ⟨bounds, hbounds⟩ := exists_bounds s hcontent
  refine ⟨bounds, hbounds, fun n hn htool hfree => ?_⟩
  obtain ⟨t, ht, hid⟩ := toolPlace_of_element s d hn htool
  have hbox := box?_of_toolPlace s d ht
  rw [hid] at hbox
  have hseat := anchored?_of_unanchored s hfree
  rw [← hid] at hseat
  have harea := Scene.placeTools_inArea hgrid hwidth hheight (scene_covered s hbounds) ht hseat
  have horigin : (Plan.ofDiagram s d).scene.fallbackOrigin s =
      ⟨Grid.snapUp (bounds.right + s.tools.gap) s.gridSize, Grid.snap bounds.y s.gridSize⟩ := by
    rw [Scene.fallbackOrigin, fallbackBounds_eq, hbounds, Option.getD_some]
  obtain ⟨hleft, htop⟩ := harea
  rw [horigin] at hleft htop
  exact ⟨_, hbox, hleft, htop⟩

theorem unanchored_right_standard :
    let s : LayoutSettings Rat := .standard
    let d : Diagram Rat :=
      ⟨[.new "a" .step, .new "g" .group, .new "t" .tool, .new "u" .tool], [.new "g" "u" .tool]⟩
    Rect.enclosing? (rectsOf s d (fallbackContent d)) = some ⟨20, 80, 240, 100⟩ ∧
      (∃ b, (d.arrange s).box? "t" = some b ∧ 320 ≤ b.rect.x ∧ 80 ≤ b.rect.y) ∧
      ∃ b, (d.arrange s).box? "u" = some b ∧ 320 ≤ b.rect.x ∧ 80 ≤ b.rect.y := by
  intro s d
  have hgrid : 0 < s.gridSize := by decide +kernel
  have hwidth : 0 ≤ s.toolWidth + s.tools.separation := by decide +kernel
  have hheight : 0 ≤ s.toolHeight + s.tools.separation := by decide +kernel
  have helements : d.elements = d.nodes := elements_of_nodup (by decide)
  have hcontent : ∃ n ∈ d.elements, n.isTool = false :=
    ⟨.new "a" .step, by simp [helements, d], rfl⟩
  have hbounds : Rect.enclosing? (rectsOf s d (fallbackContent d)) = some ⟨20, 80, 240, 100⟩ := by
    decide +kernel
  have hleft : Grid.snapUp ((20 : Rat) + 240 + s.tools.gap) s.gridSize = 320 := by decide +kernel
  have htop : Grid.snap (80 : Rat) s.gridSize = 80 := by decide +kernel
  have hfree (id : String) (h : (d.hangsOff? id).isNone = true) : Unanchored s d id := by
    intro m b hm
    rw [hm] at h
    cases h
  obtain ⟨bounds, hb, htools⟩ := unanchored_right s hgrid hwidth hheight hcontent
  obtain rfl := Option.some.inj (hbounds.symm.trans hb)
  obtain ⟨t, ht, htx, hty⟩ := htools (.new "t" .tool) (by simp [helements, d]) rfl
    (hfree "t" (by decide +kernel))
  obtain ⟨u, hu, hux, huy⟩ := htools (.new "u" .tool) (by simp [helements, d]) rfl
    (hfree "u" (by decide +kernel))
  exact ⟨hbounds, ⟨t, ht, hleft ▸ htx, htop ▸ hty⟩, ⟨u, hu, hleft ▸ hux, htop ▸ huy⟩⟩

end Diagram

end FlowCanvas
