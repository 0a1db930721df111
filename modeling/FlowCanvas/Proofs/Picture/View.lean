import FlowCanvas.Proofs.Picture.Clip
import FlowCanvas.Proofs.Picture.Order

/-! Everything is in view. The bounds of an arrangement hold all of its boxes, and whatever else
does holds the bounds. The view of a picture is no smaller than the bounds, so it has all boxes in
it, and with them the arrows, which run from the centre of a box to the border of another one. -/

namespace FlowCanvas

namespace Rect

theorem contains_enclosing? {rs : List (Rect Rat)} {r b : Rect Rat} (h : enclosing? rs = some b)
    (hr : ∀ s ∈ rs, r.contains s = true) : r.contains b = true := by
  obtain ⟨⟨⟨s, hs, hx⟩, -⟩, ⟨⟨t, ht, hy⟩, -⟩⟩ := enclosing?_start h
  obtain ⟨⟨⟨u, hu, hright⟩, -⟩, ⟨⟨v, hv, hbottom⟩, -⟩⟩ := enclosing?_stop h
  rw [contains_iff, ← hx, ← hy, ← hright, ← hbottom]
  exact ⟨(contains_iff.mp (hr s hs)).1, (contains_iff.mp (hr t ht)).2.1,
    (contains_iff.mp (hr u hu)).2.2.1, (contains_iff.mp (hr v hv)).2.2.2⟩

end Rect

namespace Picture

theorem viewOf_contains {padding : Rat} (hpad : 0 ≤ padding) (b : Rect Rat) :
    (viewOf padding b).contains b = true := by
  have hw := le_max_left (b.width + padding * 2) 200
  have hh := le_max_left (b.height + padding * 2) 200
  rw [Rect.contains_iff]
  simp only [viewOf, Rect.right_rat, Rect.bottom_rat, Scalar.larger_eq_max, Scalar.two_rat,
    Scalar.ofNat_rat, Nat.cast_ofNat]
  refine ⟨?_, ?_, ?_, ?_⟩ <;> linarith

end Picture

namespace Diagram

variable (s : LayoutSettings Rat) (d : Diagram Rat)

theorem box?_eq (id : String) : (d.arrange s).box? id =
    (Frames.find? d.elements id).map fun n => (Plan.outcome s d (true, n)).2 := by
  rw [arrange, Plan.arrangement_box?, find?_elements]
  rfl

section Sizes

variable (hgrid : 0 < s.gridSize) (hstep : 0 ≤ s.stepWidth ∧ 0 ≤ s.stepHeight)
  (htools : 0 ≤ s.toolWidth ∧ 0 ≤ s.toolHeight)

include hgrid hstep htools

theorem size_of_box? {id : String} {b : Box Rat} (h : (d.arrange s).box? id = some b) :
    0 ≤ b.rect.width ∧ 0 ≤ b.rect.height := by
  rw [box?_eq, Option.map_eq_some_iff] at h
  obtain ⟨n, hn, rfl⟩ := h
  have hn : n ∈ d.elements := List.mem_of_find?_eq_some hn
  cases htool : n.isTool with
  | true =>
    obtain ⟨t, ht, hid⟩ := toolPlace_of_element s d hn htool
    rw [outcome_of_tool s d htool ht hid]
    exact htools
  | false =>
    rw [Plan.outcome_box_of_plain s d htool]
    exact Plan.size_nonneg s d hgrid hstep.1 hstep.2 hn htool

end Sizes

theorem bounds_eq (hnodes : d.nodes ≠ []) :
    Rect.enclosing? ((d.arrange s).boxes.map (·.rect)) = some (d.arrange s).bounds := by
  have hboxes : (d.arrange s).boxes.map (·.rect) ≠ [] := by
    rw [boxes_outcome, List.map_map, ne_eq, List.map_eq_nil_iff, ← List.length_eq_zero_iff,
      marked_length, List.length_eq_zero_iff]
    exact hnodes
  obtain ⟨b, hb⟩ := Option.ne_none_iff_exists'.mp
    (mt (Rect.enclosing?_eq_none _).mp hboxes)
  rw [arrange_bounds, Arrangement.boundsOf, hb, Option.getD_some]

theorem bounds_contains {b : Box Rat} (hb : b ∈ (d.arrange s).boxes) :
    (d.arrange s).bounds.contains b.rect = true := by
  have hnodes : d.nodes ≠ [] := by
    intro hnil
    rw [boxes_outcome, marked, hnil] at hb
    cases hb
  exact Rect.enclosing?_contains (bounds_eq s d hnodes) b.rect (List.mem_map_of_mem hb)

theorem arrow_in_view {padding : Rat} (hgrid : 0 < s.gridSize)
    (hstep : 0 ≤ s.stepWidth ∧ 0 ≤ s.stepHeight) (htools : 0 ≤ s.toolWidth ∧ 0 ≤ s.toolHeight)
    (hpad : 0 ≤ padding) {e : Edge} {a : Arrow Rat}
    (h : Picture.arrow? (d.arrange s) e = some a) :
    a.start.In (Picture.viewOf padding (d.arrange s).bounds) ∧
      a.tip.In (Picture.viewOf padding (d.arrange s).bounds) := by
  rw [Picture.arrow?, Option.bind_eq_some_iff] at h
  obtain ⟨source, hsource, h⟩ := h
  obtain ⟨target, htarget, rfl⟩ := Option.map_eq_some_iff.mp h
  have hcenter {id : String} {b : Box Rat} (hb : (d.arrange s).box? id = some b) :
      b.rect.center.In (Picture.viewOf padding (d.arrange s).bounds) := by
    obtain ⟨hw, hh⟩ := size_of_box? s d hgrid hstep htools hb
    have hbounds := bounds_contains s d (List.mem_of_find?_eq_some hb)
    exact (Rect.center_in hw hh).mono
      (Rect.contains_trans (Picture.viewOf_contains hpad _) hbounds)
  obtain ⟨hw, hh⟩ := size_of_box? s d hgrid hstep htools htarget
  obtain ⟨t, ht, ht', htip⟩ := Rect.clip_toward hw hh source.rect.center
  refine ⟨hcenter hsource, ?_⟩
  dsimp only
  rw [htip]
  exact (hcenter htarget).toward (hcenter hsource) ht ht'

/-- The bounds are the least rectangle that has all boxes in it. All of them are drawn, and in view.
Every edge between boxes has its arrow, from the centre of one to the border of the other, and both
ends of each arrow are in view. -/
theorem drawing_in_view [Svg.Numerals Rat] (hnodes : d.nodes ≠ []) (hgrid : 0 < s.gridSize)
    (hstep : 0 ≤ s.stepWidth ∧ 0 ≤ s.stepHeight) (htools : 0 ≤ s.toolWidth ∧ 0 ≤ s.toolHeight)
    (t : Theme Rat) (p : PreviewSettings Rat) (hpad : 0 ≤ p.padding) :
    ((∀ b ∈ (d.arrange s).boxes, (d.arrange s).bounds.contains b.rect = true) ∧
        ∀ r : Rect Rat, (∀ b ∈ (d.arrange s).boxes, r.contains b.rect = true) →
          r.contains (d.arrange s).bounds = true) ∧
      ∃ picture drawing, Picture.ofArrangement? p.padding (d.arrange s) d.edges = some picture ∧
        (d.arrange s).svg? d.edges t p = some (String.ofList drawing.write) ∧
        Svg.Draws picture drawing ∧ (picture.groups ++ picture.boxes).Perm (d.arrange s).boxes ∧
        (∀ b ∈ picture.groups ++ picture.boxes, picture.view.contains b.rect = true) ∧
        (∀ e ∈ d.edges, ∀ b c, (d.arrange s).box? e.source = some b →
          (d.arrange s).box? e.target = some c →
            ⟨e.kind, b.rect.center, c.rect.clip b.rect.center⟩ ∈ picture.arrows) ∧
        ∀ a ∈ picture.arrows, a.start.In picture.view ∧ a.tip.In picture.view := by
  obtain ⟨sorted, hsorted, hpicture⟩ :=
    Picture.exists_ofArrangement? p.padding (d.arrange s) d.edges
  have hdrawn : (sorted ++ (d.arrange s).boxes.filter (·.kind ≠ .group)).Perm
      (d.arrange s).boxes := by
    refine ((Picture.byArea?_perm hsorted).append_right _).trans ?_
    simpa [Arrangement.groups] using
      List.filter_append_perm (fun b : Box Rat => b.kind = .group) (d.arrange s).boxes
  refine ⟨⟨fun b => bounds_contains s d, fun r hr => ?_⟩, _, _, hpicture,
    Arrangement.svg?_of_picture t p hpicture, Svg.draws_drawing t p _, hdrawn, fun b hb => ?_,
    fun e he b c hb hc => ?_, ?_⟩
  · refine Rect.contains_enclosing? (bounds_eq s d hnodes) fun q hq => ?_
    obtain ⟨b, hb, rfl⟩ := List.mem_map.mp hq
    exact hr b hb
  · exact Rect.contains_trans (Picture.viewOf_contains hpad _)
      (bounds_contains s d (hdrawn.subset hb))
  · refine List.mem_filterMap.mpr ⟨e, he, ?_⟩
    rw [Picture.arrow?, hb, hc]
    rfl
  · intro a ha
    obtain ⟨e, -, he⟩ := List.mem_filterMap.mp ha
    exact arrow_in_view s d hgrid hstep htools hpad he

theorem drawing_in_view_standard :
    let s : LayoutSettings Rat := .standard
    let d : Diagram Rat := ⟨[.new "a" .step, .new "g" .group, .new "t" .tool],
      [.new "a" "t" .tool, .new "a" "a" .route]⟩
    let p : PreviewSettings Rat := .standard
    let _numerals : Svg.Numerals Rat := ⟨toString, toString⟩
    (d.nodes ≠ [] ∧ 0 < s.gridSize ∧ (0 ≤ s.stepWidth ∧ 0 ≤ s.stepHeight) ∧
        (0 ≤ s.toolWidth ∧ 0 ≤ s.toolHeight) ∧ 0 ≤ p.padding) ∧
      ∃ picture drawing b c,
        Picture.ofArrangement? p.padding (d.arrange s) d.edges = some picture ∧
        (d.arrange s).svg? d.edges .modern p = some (String.ofList drawing.write) ∧
        Svg.Draws picture drawing ∧ (picture.groups ++ picture.boxes).Perm (d.arrange s).boxes ∧
        (∀ b ∈ picture.groups ++ picture.boxes, picture.view.contains b.rect = true) ∧
        (d.arrange s).box? "a" = some b ∧ (d.arrange s).box? "t" = some c ∧
        ⟨.tool, b.rect.center, c.rect.clip b.rect.center⟩ ∈ picture.arrows ∧
        ∀ a ∈ picture.arrows, a.start.In picture.view ∧ a.tip.In picture.view := by
  intro s d p _numerals
  have hnodes : d.nodes ≠ [] := List.cons_ne_nil _ _
  have hgrid : 0 < s.gridSize := by decide +kernel
  have hstep : 0 ≤ s.stepWidth ∧ 0 ≤ s.stepHeight := by decide +kernel
  have htools : 0 ≤ s.toolWidth ∧ 0 ≤ s.toolHeight := by decide +kernel
  have hpad : 0 ≤ p.padding := by decide +kernel
  obtain ⟨-, picture, drawing, hpicture, htext, hdraws, hdrawn, hview, harrows, hends⟩ :=
    drawing_in_view s d hnodes hgrid hstep htools .modern p hpad
  obtain ⟨b, hb⟩ : ∃ b, (d.arrange s).box? "a" = some b := ⟨_, rfl⟩
  obtain ⟨c, hc⟩ : ∃ c, (d.arrange s).box? "t" = some c := ⟨_, rfl⟩
  have harrow := harrows _ List.mem_cons_self b c hb hc
  exact ⟨⟨hnodes, hgrid, hstep, htools, hpad⟩, picture, drawing, b, c, hpicture, htext, hdraws,
    hdrawn, hview, hb, hc, harrow, hends⟩

end Diagram

end FlowCanvas
