import FlowCanvas.Proofs.Arrangement.Engine
import FlowCanvas.Proofs.Exact.Rect

/-! Groups fit what is in them, at every level of nesting. In the arrangement the children of a
group start within a step of the grid from the padding, and the group ends at the least multiple
of the grid that leaves the padding behind them. This is what a fit of the children where they lie
in the end would give, and that fit is the one which the group has. -/

namespace FlowCanvas

/-- What is drawn in a group, at the positions that the nodes have in it. -/
def Arrangement.inside (a : Arrangement Rat) (group : String) : List (Rect Rat) :=
  ((a.nodes.zip a.boxes).filter fun (_, b) => b.parent == some group).map fun (n, b) =>
    Rect.ofCorner n.position ⟨b.rect.width, b.rect.height⟩

namespace Fits

def IsLeastStep (grid bound x : Rat) : Prop := IsLeast {y | Grid.OnGrid grid y ∧ bound ≤ y} x

/-- On one axis, an extent that is tight around children that start and stop at these places. -/
structure Snug (grid pad least : Rat) (starts stops : Set Rat) (extent : Rat) : Prop where
  first : ∃ x, IsLeast starts x ∧ pad ≤ x ∧ x < pad + grid
  last : ∃ x, IsGreatest stops x ∧ IsLeastStep grid (max least (x + pad)) extent

/-- A size that is tight around the children of a group, or the least one if there are none. -/
structure Tight (s : LayoutSettings Rat) (inner : List (Rect Rat)) (size : Size Rat) : Prop where
  bare : inner = [] →
    IsLeastStep s.gridSize (max s.minGroupWidth s.gridSize) size.width ∧
      IsLeastStep s.gridSize (max s.minGroupHeight s.gridSize) size.height
  across : inner ≠ [] →
    Snug s.gridSize (max s.groupPadding 0) (max s.minGroupWidth s.gridSize)
      {x | ∃ r ∈ inner, r.x = x} {x | ∃ r ∈ inner, r.right = x} size.width
  down : inner ≠ [] →
    Snug s.gridSize (max s.groupPadding 0) (max s.minGroupHeight s.gridSize)
      {y | ∃ r ∈ inner, r.y = y} {y | ∃ r ∈ inner, r.bottom = y} size.height

variable (s : LayoutSettings Rat) {rs : List (Rect Rat)} {o : Point Rat}

theorem leastSize_eq : leastSize s =
    ⟨max s.minGroupWidth s.gridSize, max s.minGroupHeight s.gridSize⟩ := by
  rw [leastSize, Scalar.larger_eq_max, Scalar.larger_eq_max]

theorem pad_eq : pad s = max s.groupPadding 0 := Scalar.larger_eq_max _ _

variable (hgrid : 0 < s.gridSize)

include hgrid

theorem tight_nil : Tight s [] (around s []).size := by
  refine ⟨fun _ => ?_, fun h => absurd rfl h, fun h => absurd rfl h⟩
  rw [around_none s rfl, leastSize_eq]
  exact ⟨Grid.snapUp_isLeast hgrid _, Grid.snapUp_isLeast hgrid _⟩

theorem near_pad {x : Rat} (h : Grid.snapDown (x - pad s) s.gridSize = 0) :
    max s.groupPadding 0 ≤ x ∧ x < max s.groupPadding 0 + s.gridSize := by
  have hle := Grid.snapDown_le (x - pad s) s.gridSize
  have hlt := Grid.sub_lt_snapDown hgrid (x - pad s)
  rw [h, pad_eq] at hle hlt
  constructor <;> linarith

theorem tight_of_rests {size : Size Rat} (h : around s rs = ⟨some Point.origin, size⟩) :
    Tight s rs size := by
  have hoffset : (around s rs).offset = some Point.origin := by rw [h]
  obtain ⟨b, hb, hstart⟩ := around_offset s hoffset
  have hx : Grid.snapDown (b.x - pad s) s.gridSize = 0 := (congrArg Point.x hstart).symm
  have hy : Grid.snapDown (b.y - pad s) s.gridSize = 0 := (congrArg Point.y hstart).symm
  have hsize : boxSize s b = size := by
    rw [around_some s hb] at h
    exact congrArg Fit.size h
  have hwidth : (boxSize s b).width =
      Grid.snapUp (max (max s.minGroupWidth s.gridSize) (b.right + max s.groupPadding 0))
        s.gridSize := by
    rw [boxSize, boxStart, hx, sub_zero, leastSize_eq, pad_eq, max_comm]
  have hheight : (boxSize s b).height =
      Grid.snapUp (max (max s.minGroupHeight s.gridSize) (b.bottom + max s.groupPadding 0))
        s.gridSize := by
    rw [boxSize, boxStart, hy, sub_zero, leastSize_eq, pad_eq, max_comm (b.bottom + _)]
  obtain ⟨hleft, htop⟩ := Rect.enclosing?_start hb
  obtain ⟨hright, hbottom⟩ := Rect.enclosing?_stop hb
  subst hsize
  constructor
  · rintro rfl
    cases hb
  · intro _
    refine ⟨⟨b.x, hleft, near_pad s hgrid hx⟩, ⟨b.right, hright, ?_⟩⟩
    rw [hwidth]
    exact Grid.snapUp_isLeast hgrid _
  · intro _
    refine ⟨⟨b.y, htop, near_pad s hgrid hy⟩, ⟨b.bottom, hbottom, ?_⟩⟩
    rw [hheight]
    exact Grid.snapUp_isLeast hgrid _

theorem tight_of_moved (h : (around s rs).offset = some o) :
    Tight s (rs.map fun r => r.translate (-o.x) (-o.y)) (around s rs).size :=
  tight_of_rests s hgrid (around_translate s hgrid h)

end Fits

namespace Plan

variable (s : LayoutSettings Rat) (d : Diagram Rat) (centers : List (String × Point Rat))
  {n g : Node Rat}

theorem nodes_zip_boxes (p : Plan Rat) : (p.arrangement d).nodes.zip (p.arrangement d).boxes =
    d.marked.map (p.settle (p.tools d.edges)) := by
  rw [arrangement_nodes, arrangement_boxes, List.zip_map']

theorem inside_of_marks (tools : List (ToolPlace Rat)) (group : String)
    {ms : List (Bool × Node Rat)} (hms : ∀ n, (true, n) ∈ ms → n ∈ d.elements) :
    ((ms.map ((around s d centers).settle tools)).filter fun (_, b) => b.parent == some group).map
        (fun (n, b) => Rect.ofCorner n.position ⟨b.rect.width, b.rect.height⟩) =
      ((Diagram.firsts ms).filter fun n => (Frames.build d).parent? n.id == some group).map
        fun n => Rect.ofCorner ((ofDiagram s d).position n) ((ofDiagram s d).size n) := by
  have hf := Frames.build_wellFormed d
  induction ms with
  | nil => rfl
  | cons m ms ih =>
    have hrest := ih fun n hn => hms n (List.mem_cons_of_mem _ hn)
    obtain ⟨first, n⟩ := m
    cases first with
    | false => simpa [Diagram.firsts, settle, spare] using hrest
    | true =>
      have hn := hms n List.mem_cons_self
      rw [show Diagram.firsts ((true, n) :: ms) = n :: Diagram.firsts ms from rfl, List.map_cons]
      cases htool : n.isTool with
      | true => simpa [settle, placed, htool, hf.parent?_of_tool hn htool] using hrest
      | false =>
        obtain ⟨hposition, -, hbox⟩ := settle_of_plain (around s d centers) tools htool
        rw [around_frames] at hbox
        by_cases hp : (Frames.build d).parent? n.id = some group
        · rw [around_position s d centers hp] at hposition
          simp only [List.filter_cons, hbox, hp, BEq.rfl, if_true, List.map_cons, hrest, hposition]
          rfl
        · have hne : ((Frames.build d).parent? n.id == some group) = false := by simpa using hp
          simp only [List.filter_cons, hbox, hne, Bool.false_eq_true, if_false, hrest]

theorem inside_eq (group : String) : ((around s d centers).arrangement d).inside group =
    ((Frames.build d).children group).map fun n =>
      Rect.ofCorner ((ofDiagram s d).position n) ((ofDiagram s d).size n) := by
  rw [Arrangement.inside, nodes_zip_boxes,
    inside_of_marks s d centers _ group fun n hn => Diagram.mem_elements.mpr hn]
  rfl

theorem inside_eq_childRects (hg : g ∈ d.elements) {o : Point Rat}
    (ho : (Fits.around s (childRects s d g)).offset = some o) :
    ((around s d centers).arrangement d).inside g.id =
      (childRects s d g).map fun r => r.translate (-o.x) (-o.y) := by
  rw [inside_eq, childRects, List.map_map]
  apply List.map_congr_left
  intro n hn
  obtain ⟨hmem, hparent⟩ := (Frames.mem_children _).mp hn
  obtain ⟨p, hp, hpos⟩ := position_of_parent s d hg hmem hparent
  obtain rfl : p = o := Option.some.inj (hp.symm.trans ho)
  rw [hpos]
  simp only [Function.comp_apply, Fits.childRect, Rect.ofCorner, Rect.translate, sub_eq_add_neg]
  rfl

theorem tight_of_group (hgrid : 0 < s.gridSize) (hg : g ∈ d.elements)
    (hgroup : g.isGroup = true) :
    Fits.Tight s (((around s d centers).arrangement d).inside g.id)
      ((around s d centers).size g) := by
  rw [around_size, size_of_group s d hg hgroup]
  cases ho : (Fits.around s (childRects s d g)).offset with
  | none =>
    have hnone := (Fits.around_offset_eq_none s).mp ho
    have hinside : ((around s d centers).arrangement d).inside g.id = [] := by
      rw [inside_eq, List.map_eq_nil_iff]
      exact List.map_eq_nil_iff.mp hnone
    rw [hinside, hnone]
    exact Fits.tight_nil s hgrid
  | some o =>
    rw [inside_eq_childRects s d centers hg ho]
    exact Fits.tight_of_moved s hgrid ho

end Plan

namespace Diagram

variable {s : LayoutSettings Rat} {d : Diagram Rat} {g : Node Rat}

/-- Whichever engine arranges a diagram, every group has a size that is tight around its children
where they lie in the arrangement, and this size is written to the style of the group. -/
theorem groups_tight {dagre : Dagre Option Rat} {a : Arrangement Rat}
    (ha : d.arrangeBy dagre s = some a) (hgrid : 0 < s.gridSize) (hg : g ∈ d.elements)
    (hgroup : g.isGroup = true) :
    ∃ m b, a.nodes.find? (·.id == g.id) = some m ∧ a.box? g.id = some b ∧
      m.style.width = some (.number b.rect.width) ∧
      m.style.height = some (.number b.rect.height) ∧
      Fits.Tight s (a.inside g.id) ⟨b.rect.width, b.rect.height⟩ := by
  obtain ⟨centers, rfl⟩ := around_of_arrangeBy ha
  have hnode := Plan.arrangement_node? (Plan.around s d centers) d g.id
  have hbox := Plan.arrangement_box? (Plan.around s d centers) d g.id
  rw [node?_of_element hg, Option.map_some] at hnode hbox
  refine ⟨_, _, hnode, hbox, ?_, ?_, ?_⟩
  · rw [Plan.settle_of_group _ _ hgroup]
  · rw [Plan.settle_of_group _ _ hgroup]
  · rw [Plan.settle_box_of_plain _ _ (isTool_of_isGroup hgroup)]
    exact Plan.tight_of_group s d centers hgrid hg hgroup

theorem groups_tight_lone :
    let s : LayoutSettings Rat := { LayoutSettings.standard with engine := .dagre }
    let d : Diagram Rat :=
      ⟨[{ Node.new "a" .step with parent := some "g", position := ⟨-70, 31⟩ },
          { Node.new "g" .group with parent := some "h" }, .new "h" .group,
          { Node.new "b" .step with parent := some "h", position := ⟨500, -90⟩ }], []⟩
    (0 < s.gridSize ∧ ∃ g ∈ d.elements, g.isGroup = true ∧ g.id = "h") ∧
      ∃ a b, d.arrangeBy .lone s = some a ∧ a.box? "h" = some b ∧
        Fits.Tight s (a.inside "h") ⟨b.rect.width, b.rect.height⟩ := by
  intro s d
  have hgrid : 0 < s.gridSize := by decide +kernel
  have hg : (Node.new "h" .group : Node Rat) ∈ d.elements := by
    rw [elements_of_nodup (by decide)]
    simp [d]
  have hsome : (d.arrangeBy .lone s).isSome = true := by decide +kernel
  obtain ⟨a, ha⟩ := Option.isSome_iff_exists.mp hsome
  obtain ⟨m, b, -, hbox, -, -, htight⟩ := groups_tight ha hgrid hg rfl
  exact ⟨⟨hgrid, _, hg, rfl, rfl⟩, a, b, ha, hbox, htight⟩

end Diagram

end FlowCanvas
