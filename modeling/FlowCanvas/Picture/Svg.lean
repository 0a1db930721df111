import FlowCanvas.Number.Style
import FlowCanvas.Picture
import FlowCanvas.Text.Entity
import FlowCanvas.Text.Markup

/-!
Pictures as SVG. The size of the canvas is written with shortest digits and everything on it with
two decimal places. Ids and the font family are encoded; colours are put in as they are.
-/

namespace FlowCanvas.Svg

class Numerals (α : Type) where
  plain : α → String
  places : α → String

instance : Numerals Float32 where
  plain x := String.ofList (NumberStyle.plain.write (Binary.ofSingle x))
  places x := String.ofList (twoPlaces (Binary.ofSingle x))

variable {α : Type} [Scalar α] [Numerals α]

def plain (x : α) : String := Numerals.plain x

def places (x : α) : String := Numerals.places x

def rectAttributes (r : Rect α) : List (String × String) :=
  [("x", places r.x), ("y", places r.y), ("width", places r.width), ("height", places r.height)]

def rounding (radius : String) : List (String × String) := [("rx", radius), ("ry", radius)]

def label (t : Theme α) (x y : α) (anchor : List (String × String)) (id : String) : Markup :=
  .element "text"
    ([("x", places x), ("y", places y)] ++ anchor ++
      [("font-family", Entity.encode t.fontFamily), ("font-size", plain t.fontSize),
        ("fill", t.textColor)])
    [.text (Entity.encode id)]

def canvas (p : PreviewSettings α) (view : Rect α) : Markup :=
  .element "rect"
    [("x", plain view.x), ("y", plain view.y), ("width", "100%"), ("height", "100%"),
      ("fill", p.background)] []

def arrowHead (t : Theme α) : Markup :=
  .element "defs" [] [
    .element "marker"
      [("id", "arrow"), ("viewBox", "0 0 10 10"), ("refX", "10"), ("refY", "5"),
        ("markerWidth", "6"), ("markerHeight", "6"), ("orient", "auto-start-reverse")]
      [.element "path" [("d", "M 0 0 L 10 5 L 0 10 z"), ("fill", t.routeColor)] []]]

def frame (t : Theme α) (r : Rect α) : Markup :=
  .element "rect"
    (rectAttributes r ++ rounding "10" ++
      [("fill", t.groupFill), ("stroke", t.groupBorder), ("stroke-dasharray", "6 4"),
        ("stroke-width", "1.2")]) []

def group (t : Theme α) (b : Box α) : List Markup :=
  [frame t b.rect, label t (b.rect.x + Scalar.ofNat 12) (b.rect.y + Scalar.ofNat 20) [] b.id]

def strokeOf (t : Theme α) : EdgeKind → String × List (String × String)
  | .tool => (t.toolEdgeColor, [("stroke-dasharray", "4 3")])
  | _ => (t.routeColor, [])

def arrow (t : Theme α) (a : Arrow α) : Markup :=
  let (color, dashes) := strokeOf t a.kind
  let line := "M " ++ places a.start.x ++ " " ++ places a.start.y ++
    " L " ++ places a.tip.x ++ " " ++ places a.tip.y
  .element "path"
    ([("d", line), ("fill", "none"), ("stroke", color), ("stroke-width", "1.4")] ++ dashes ++
      [("marker-end", "url(#arrow)")]) []

def shapeOf (t : Theme α) : NodeKind → String × String × String
  | .tool => (t.toolFill, t.toolBorder, "18")
  | _ => (t.stepFill, t.stepBorder, "10")

def box (t : Theme α) (b : Box α) : List Markup :=
  let (fill, border, radius) := shapeOf t b.kind
  let c := b.rect.center
  [.element "rect"
    (rectAttributes b.rect ++ rounding radius ++
      [("fill", fill), ("stroke", border), ("stroke-width", "1.4")]) [],
    label t c.x (c.y + t.fontSize / Scalar.ofNat 3) [("text-anchor", "middle")] b.id]

def content (t : Theme α) (p : PreviewSettings α) (picture : Picture α) : List Markup :=
  canvas p picture.view :: arrowHead t :: (picture.groups.flatMap (group t) ++
    picture.arrows.map (arrow t) ++ picture.boxes.flatMap (box t))

def drawing (t : Theme α) (p : PreviewSettings α) (picture : Picture α) : Markup :=
  let view := picture.view
  let width := plain view.width
  let height := plain view.height
  .element "svg"
    [("xmlns", "http://www.w3.org/2000/svg"), ("width", width), ("height", height),
      ("viewBox", plain view.x ++ " " ++ plain view.y ++ " " ++ width ++ " " ++ height)]
    (content t p picture)

end FlowCanvas.Svg

namespace FlowCanvas.Arrangement

def svg? {α : Type} [Scalar α] [Svg.Numerals α] (a : Arrangement α) (edges : List Edge)
    (t : Theme α) (p : PreviewSettings α) : Option String :=
  (Picture.ofArrangement? p.padding a edges).map fun picture =>
    String.ofList (Svg.drawing t p picture).write

end FlowCanvas.Arrangement
