import Mathlib.Data.List.Forall2
import FlowCanvas.Picture.Svg

/-! What a drawing shows of a picture. It declares the view, and on the canvas there is a rectangle
for each group, then one for each other box, and a line for each arrow, all in their order. There
are no other rectangles and lines, and it makes no difference how numbers are written. -/

namespace FlowCanvas

namespace Markup

def isNamed (name : String) : Markup → Bool
  | .element other _ _ => other == name
  | .text _ => false

variable {β : Type} {name : String} {f : β → List Markup}

theorem filter_flatMap_eq_nil (h : ∀ b, (f b).filter (·.isNamed name) = []) (bs : List β) :
    (bs.flatMap f).filter (·.isNamed name) = [] := by
  rw [List.filter_flatMap, List.flatMap_eq_nil_iff]
  exact fun b _ => h b

theorem forall₂_filter_flatMap {R : β → Markup → Prop}
    (h : ∀ b, ∃ m, (f b).filter (·.isNamed name) = [m] ∧ R b m) (bs : List β) :
    List.Forall₂ R bs ((bs.flatMap f).filter (·.isNamed name)) := by
  induction bs with
  | nil => exact .nil
  | cons b bs ih =>
    obtain ⟨m, hm, hR⟩ := h b
    rw [List.flatMap_cons, List.filter_append, hm]
    exact .cons hR ih

end Markup

namespace Svg

section Elements

variable {α : Type} [Numerals α]

/-- An element that is drawn as a rectangle, in whatever paint. -/
inductive Outlines (r : Rect α) : Markup → Prop
  | rect (paint : List (String × String)) : Outlines r (.element "rect"
      ([("x", places r.x), ("y", places r.y), ("width", places r.width),
        ("height", places r.height)] ++ paint) [])

inductive Joins (a : Arrow α) : Markup → Prop
  | path (paint : List (String × String)) : Joins a (.element "path"
      (("d", "M " ++ places a.start.x ++ " " ++ places a.start.y ++
        " L " ++ places a.tip.x ++ " " ++ places a.tip.y) :: paint) [])

/-- What is in a drawing of a picture, from its declared view to the arrows. -/
inductive Draws (picture : Picture α) : Markup → Prop
  | svg {attributes : List (String × String)} {content shapes : List Markup} {canvas : Markup}
    (hview : attributes.lookup "viewBox" = some (plain picture.view.x ++ " " ++
      plain picture.view.y ++ " " ++ plain picture.view.width ++ " " ++ plain picture.view.height))
    (hcontent : content.filter (·.isNamed "rect") = canvas :: shapes)
    (hshapes : List.Forall₂ (fun b => Outlines b.rect) (picture.groups ++ picture.boxes) shapes)
    (hlines : List.Forall₂ Joins picture.arrows (content.filter (·.isNamed "path"))) :
    Draws picture (.element "svg" attributes content)

end Elements

variable {α : Type} [Scalar α] [Numerals α] (t : Theme α) (p : PreviewSettings α)
  (picture : Picture α)

theorem content_rectangles : ∃ shapes,
    (content t p picture).filter (·.isNamed "rect") = canvas p picture.view :: shapes ∧
      List.Forall₂ (fun b => Outlines b.rect) (picture.groups ++ picture.boxes) shapes := by
  have hgroup (b : Box α) : ∃ m,
      (group t b).filter (·.isNamed "rect") = [m] ∧ Outlines b.rect m := by
    refine ⟨frame t b.rect, rfl, ?_⟩
    rw [frame, rectAttributes, List.append_assoc]
    exact .rect _
  have hbox (b : Box α) : ∃ m, (box t b).filter (·.isNamed "rect") = [m] ∧ Outlines b.rect m := by
    refine ⟨_, rfl, ?_⟩
    rw [rectAttributes, List.append_assoc]
    exact .rect _
  have harrows : (picture.arrows.map (arrow t)).filter (·.isNamed "rect") = [] := by
    rw [List.map_eq_flatMap]
    exact Markup.filter_flatMap_eq_nil (fun _ => rfl) _
  refine ⟨_, ?_, List.rel_append (Markup.forall₂_filter_flatMap hgroup picture.groups)
    (Markup.forall₂_filter_flatMap hbox picture.boxes)⟩
  rw [content, List.filter_cons_of_pos rfl, List.filter_cons_of_neg Bool.false_ne_true,
    List.filter_append, List.filter_append, harrows, List.append_nil]

theorem content_lines :
    List.Forall₂ Joins picture.arrows ((content t p picture).filter (·.isNamed "path")) := by
  have harrow (a : Arrow α) : ∃ m, [arrow t a].filter (·.isNamed "path") = [m] ∧ Joins a m :=
    ⟨arrow t a, rfl, .path _⟩
  have hgroups : (picture.groups.flatMap (group t)).filter (·.isNamed "path") = [] :=
    Markup.filter_flatMap_eq_nil (fun _ => rfl) _
  have hboxes : (picture.boxes.flatMap (box t)).filter (·.isNamed "path") = [] :=
    Markup.filter_flatMap_eq_nil (fun _ => rfl) _
  rw [content, List.filter_cons_of_neg Bool.false_ne_true,
    List.filter_cons_of_neg Bool.false_ne_true, List.filter_append, List.filter_append, hgroups,
    hboxes, List.append_nil, List.nil_append, List.map_eq_flatMap]
  exact Markup.forall₂_filter_flatMap harrow picture.arrows

theorem draws_drawing : Draws picture (drawing t p picture) := by
  obtain ⟨_, hcontent, hshapes⟩ := content_rectangles t p picture
  exact .svg rfl hcontent hshapes (content_lines t p picture)

end Svg

namespace Arrangement

variable {α : Type} [Scalar α] [Svg.Numerals α] (t : Theme α) (p : PreviewSettings α)

theorem svg?_of_picture {a : Arrangement α} {edges : List Edge} {picture : Picture α}
    (h : Picture.ofArrangement? p.padding a edges = some picture) :
    a.svg? edges t p = some (String.ofList (Svg.drawing t p picture).write) := by
  rw [svg?, h, Option.map_some]

end Arrangement

end FlowCanvas
