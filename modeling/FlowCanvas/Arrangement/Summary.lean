import FlowCanvas.Arrangement
import FlowCanvas.Diagram.Document

/-!
The summary of an arrangement: all boxes in canvas coordinates, straight edges between their
centres, and what each group holds, as one flat JSON document.
-/

namespace FlowCanvas.Arrangement

variable (a : Arrangement Float32)

def directionName : Direction → String
  | .topDown => "TopDown"
  | .leftRight => "LeftRight"

def extentFields (r : Rect Float32) : List (String × Json) :=
  [("x", ofSingle r.x), ("y", ofSingle r.y), ("width", ofSingle r.width),
    ("height", ofSingle r.height)]

def nodeEntry (b : Box Float32) : Json :=
  .object ([("id", .text b.id), ("kind", .text b.kind.name),
    ("parent", (b.parent.map Json.text).getD .null)] ++ extentFields b.rect)

def pointEntry (p : Point Float32) : Json := .array [ofSingle p.x, ofSingle p.y]

def edgeEntry? (e : Edge) : Option Json :=
  (a.box? e.source).bind fun source =>
    (a.box? e.target).map fun target =>
      .object [("from", .text e.source), ("to", .text e.target), ("kind", .text e.kind.name),
        ("points", .array [pointEntry source.rect.center, pointEntry target.rect.center])]

def membersOf (group : String) : List String :=
  (a.boxes.filter fun b => b.parent == some group).map (·.id)

def groupEntry (g : Box Float32) : Json :=
  .object ([("id", .text g.id), ("nodes", .array ((a.membersOf g.id).map Json.text))] ++
    extentFields g.rect)

def summary (s : LayoutSettings Float32) (edges : List Edge) : Json :=
  .object [
    ("direction", .text (directionName s.direction)),
    ("grid", ofSingle s.gridSize),
    ("width", ofSingle a.width),
    ("height", ofSingle a.height),
    ("nodes", .array (a.boxes.map nodeEntry)),
    ("edges", .array (edges.filterMap a.edgeEntry?)),
    ("groups", .array (a.groups.map a.groupEntry))]

end FlowCanvas.Arrangement
