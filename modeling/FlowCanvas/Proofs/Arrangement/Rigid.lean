import FlowCanvas.Proofs.Arrangement.Engine

/-! Groups move what is in them as a whole. Fitting a group moves its corner one way and its
children the other way. Along the groups above an element these moves cancel, all but that of the
element itself, which has none unless it is a fitted group, and that of its outermost group. So on
the canvas the elements in one outermost group lie as the given positions have it. -/

namespace FlowCanvas

/-- An element and the groups above it, but not the outermost one. -/
def Frames.within {α : Type} (f : Frames α) (id : String) : List String :=
  (id :: f.ancestors id).dropLast

namespace Frames

variable {α : Type} {f : Frames α} {id p : String}

theorem within_of_free (h : f.parent? id = none) : f.within id = [] := by
  rw [within, ancestors_of_free h, List.dropLast_singleton]

theorem WellFormed.within_of_parent (hf : f.WellFormed) (h : f.parent? id = some p) :
    f.within id = id :: f.within p := by
  rw [within, hf.ancestors_of_parent h, List.dropLast_cons_cons, within]

end Frames

namespace Diagram

open Plan

variable (s : LayoutSettings Rat) (d : Diagram Rat) (centers : List (String × Point Rat))
  {n g a b : Node Rat}

/-- Where the first node with an id is given to lie, on the grid. -/
def given (id : String) : Point Rat :=
  match d.node? id with
  | some n => Grid.snapPoint n.position s.gridSize
  | none => Point.origin

/-- Where an element is given to lie in its outermost group: the given positions of the element and
of the groups between them, added up. -/
def laid (id : String) : Point Rat :=
  ((Frames.build d).within id).foldr (fun i p => ⟨(given s d i).x + p.x, (given s d i).y + p.y⟩)
    Point.origin

theorem given_of_element (hn : n ∈ d.elements) :
    given s d n.id = Grid.snapPoint n.position s.gridSize := by
  simp only [given, node?_of_element hn]

theorem laid_of_free {id : String} (h : (Frames.build d).parent? id = none) :
    laid s d id = Point.origin := by
  rw [laid, Frames.within_of_free h, List.foldr_nil]

theorem laid_of_parent {id p : String} (h : (Frames.build d).parent? id = some p) :
    laid s d id =
      ⟨(given s d id).x + (laid s d p).x, (given s d id).y + (laid s d p).y⟩ := by
  rw [laid, (Frames.build_wellFormed d).within_of_parent h, List.foldr_cons, laid]

def shift (id : String) : Point Rat :=
  (Fits.offset? (ofDiagram s d).fits id).getD Point.origin

def pin (n : Node Rat) : Point Rat :=
  ⟨((around s d centers).corner n).x - (shift s d n.id).x,
    ((around s d centers).corner n).y - (shift s d n.id).y⟩

theorem moved_eq (hn : n ∈ d.elements) : Fits.moved s (ofDiagram s d).fits n =
    ⟨(given s d n.id).x + (shift s d n.id).x, (given s d n.id).y + (shift s d n.id).y⟩ := by
  rw [given_of_element s d hn, Fits.moved, shift]
  cases Fits.offset? (ofDiagram s d).fits n.id with
  | none => simp [Point.origin]
  | some o => rfl

theorem shift_of_unfitted (hn : n ∈ d.elements)
    (h : n.isGroup = true → (Frames.build d).children n.id = []) :
    shift s d n.id = Point.origin := by
  have hnone : Fits.offset? (ofDiagram s d).fits n.id = none := by
    cases hgroup : n.isGroup with
    | false => rw [Fits.offset?, fits_of_other s d hn hgroup, Option.bind_none]
    | true =>
      rw [Fits.offset?, fits_of_group s d hn hgroup, Option.bind_some, childRects, h hgroup]
      exact (Fits.around_offset_eq_none s).mpr rfl
  rw [shift, hnone, Option.getD_none]

theorem position_of_child (hg : g ∈ d.elements) (hn : n ∈ d.elements)
    (h : (Frames.build d).parent? n.id = some g.id) :
    (ofDiagram s d).position n =
      ⟨(given s d n.id).x + (shift s d n.id).x - (shift s d g.id).x,
        (given s d n.id).y + (shift s d n.id).y - (shift s d g.id).y⟩ := by
  obtain ⟨o, ho, hpos⟩ := position_of_parent s d hg hn h
  have hshift : shift s d g.id = o := by
    rw [shift, Fits.offset?, fits_of_group s d hg (group_of_parent d hg h), Option.bind_some, ho,
      Option.getD_some]
  rw [hpos, moved_eq s d hn, hshift]

/-- What fitting its group takes from a child is what it adds to the corner of the group. -/
theorem pin_of_parent (hg : g ∈ d.elements) (hn : n ∈ d.elements)
    (h : (Frames.build d).parent? n.id = some g.id) :
    pin s d centers n = ⟨(given s d n.id).x + (pin s d centers g).x,
      (given s d n.id).y + (pin s d centers g).y⟩ := by
  simp only [pin, around_corner s d centers hg h, position_of_child s d hg hn h]
  congr 1 <;> ring

theorem pin_eq (hn : n ∈ d.elements) :
    ∃ t ∈ d.elements, t.id = (Frames.build d).topLevel n.id ∧
      pin s d centers n = ⟨(laid s d n.id).x + (pin s d centers t).x,
        (laid s d n.id).y + (pin s d centers t).y⟩ := by
  have hf := Frames.build_wellFormed d
  induction hk : (Frames.build d).depth n.id generalizing n with
  | zero =>
    have hfree : (Frames.build d).parent? n.id = none := by
      cases hp : (Frames.build d).parent? n.id with
      | none => rfl
      | some p =>
        rw [hf.depth_of_parent hp] at hk
        cases hk
    refine ⟨n, hn, (Frames.topLevel_of_free hfree).symm, ?_⟩
    simp [laid_of_free s d hfree, Point.origin]
  | succ k ih =>
    cases hp : (Frames.build d).parent? n.id with
    | none =>
      rw [Frames.depth_of_free hp] at hk
      cases hk
    | some p =>
      obtain ⟨g, hg, rfl, -⟩ := hf.parent?_group hp
      rw [hf.depth_of_parent hp, Nat.succ.injEq] at hk
      obtain ⟨t, ht, hid, hpin⟩ := ih hg hk
      refine ⟨t, ht, hid.trans (hf.topLevel_of_parent hp).symm, ?_⟩
      rw [pin_of_parent s d centers hg hn hp, hpin, laid_of_parent s d hp]
      congr 1 <;> ring

theorem corner_of_unfitted (hn : n ∈ d.elements)
    (h : n.isGroup = true → (Frames.build d).children n.id = []) :
    (around s d centers).corner n = pin s d centers n := by
  simp [pin, shift_of_unfitted s d hn h, Point.origin]

theorem box?_of_grouped (hn : n ∈ d.elements)
    (hgrouped : (Frames.build d).isGrouped n.id = true) :
    ((around s d centers).arrangement d).box? n.id =
      some ⟨n.id, n.kind, (Frames.build d).parent? n.id, (around s d centers).rect n⟩ := by
  have htool : n.isTool = false := by
    by_contra htool
    rw [Bool.not_eq_false] at htool
    simp [Frames.isGrouped, (Frames.build_wellFormed d).parent?_of_tool hn htool] at hgrouped
  rw [arrangement_box?, node?_of_element hn, Option.map_some, settle_box_of_plain _ _ htool]
  rfl

section Engines

variable {s d}

/-- Whichever engine arranges a diagram, two elements in one outermost group, each of which is no
group or has no children, are as far from each other on the canvas as their given positions in that
group are. -/
theorem groups_rigid {dagre : Dagre Option Rat} {l : Arrangement Rat}
    (hl : d.arrangeBy dagre s = some l) (ha : a ∈ d.elements) (hb : b ∈ d.elements)
    (hagrouped : (Frames.build d).isGrouped a.id = true)
    (hbgrouped : (Frames.build d).isGrouped b.id = true)
    (htop : (Frames.build d).topLevel a.id = (Frames.build d).topLevel b.id)
    (haleaf : a.isGroup = true → (Frames.build d).children a.id = [])
    (hbleaf : b.isGroup = true → (Frames.build d).children b.id = []) :
    ∃ p q, l.box? a.id = some p ∧ l.box? b.id = some q ∧
      p.rect.x - q.rect.x = (laid s d a.id).x - (laid s d b.id).x ∧
      p.rect.y - q.rect.y = (laid s d a.id).y - (laid s d b.id).y := by
  obtain ⟨centers, rfl⟩ := around_of_arrangeBy hl
  refine ⟨_, _, box?_of_grouped s d centers ha hagrouped,
    box?_of_grouped s d centers hb hbgrouped, ?_⟩
  obtain ⟨t, ht, hta, hpina⟩ := pin_eq s d centers ha
  obtain ⟨u, hu, hub, hpinb⟩ := pin_eq s d centers hb
  obtain rfl : t = u :=
    (Frames.build_wellFormed d).eq_of_id ht hu (hta.trans (htop.trans hub.symm))
  simp only [rect, Rect.ofCorner, corner_of_unfitted s d centers ha haleaf,
    corner_of_unfitted s d centers hb hbleaf, hpina, hpinb]
  constructor <;> ring

theorem groups_rigid_lone :
    let s : LayoutSettings Rat := { LayoutSettings.standard with engine := .dagre }
    let a : Node Rat := { Node.new "a" .step with parent := some "g", position := ⟨-70, 31⟩ }
    let b : Node Rat := { Node.new "b" .step with parent := some "h", position := ⟨500, -90⟩ }
    let g : Node Rat := { Node.new "g" .group with parent := some "h", position := ⟨130, -45⟩ }
    let d : Diagram Rat := ⟨[a, g, .new "h" .group, b], []⟩
    ((Frames.build d).topLevel "a" = "h" ∧ (Frames.build d).topLevel "b" = "h") ∧
      ∃ l p q, d.arrangeBy .lone s = some l ∧ l.box? "a" = some p ∧ l.box? "b" = some q ∧
        p.rect.x - q.rect.x = -440 ∧ p.rect.y - q.rect.y = 100 := by
  intro s a b g d
  have helements : d.elements = d.nodes := elements_of_nodup (by decide)
  have ha : a ∈ d.elements := by simp [helements, d]
  have hb : b ∈ d.elements := by simp [helements, d]
  have htopa : (Frames.build d).topLevel "a" = "h" := by decide +kernel
  have htopb : (Frames.build d).topLevel "b" = "h" := by decide +kernel
  have hsome : (d.arrangeBy .lone s).isSome = true := by decide +kernel
  obtain ⟨l, hl⟩ := Option.isSome_iff_exists.mp hsome
  obtain ⟨p, q, hp, hq, hx, hy⟩ := groups_rigid hl ha hb (by decide +kernel) (by decide +kernel)
    (htopa.trans htopb.symm) (by decide) (by decide)
  have hdx : (laid s d "a").x - (laid s d "b").x = -440 := by decide +kernel
  have hdy : (laid s d "a").y - (laid s d "b").y = 100 := by decide +kernel
  exact ⟨⟨htopa, htopb⟩, l, p, q, hl, hp, hq, hx.trans hdx, hy.trans hdy⟩

end Engines

end Diagram

end FlowCanvas
