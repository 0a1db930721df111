import FlowCanvas.Diagram
import FlowCanvas.Json.Printer
import FlowCanvas.Json.Strict
import FlowCanvas.Json.Relaxed

/-!
Diagram documents. A document is a JSON object with the lists of nodes and edges, the same two lists
in sequence, or a bare list of nodes. It is read by the strict grammar first and by the relaxed one
if that fails, and ids must not repeat. Writing puts the known fields in a fixed order, leaves out
those that are at their default, and appends what was passed along.
-/

namespace FlowCanvas

open Json (fields? record?)

def optional {β : Type} (fields : List (String × Json)) (key : String) (default : β)
    (read : Json → Option β) : Option β :=
  match fields.lookup key with
  | none => some default
  | some j => read j

def required {β : Type} (fields : List (String × Json)) (key : String) (read : Json → Option β) :
    Option β :=
  (fields.lookup key).bind read

def nullable {β : Type} (read : Json → Option β) : Json → Option (Option β)
  | .null => some none
  | j => (read j).map some

def unknown (known : List String) (fields : List (String × Json)) : Extras :=
  Extras.ofFields (fields.filter fun (k, _) => !known.contains k)

def ofSingle (x : Float32) : Json := .number (.single x)

def fieldOf {β : Type} (key : String) (write : β → Json) : Option β → List (String × Json)
  | none => []
  | some x => [(key, write x)]

namespace Point

def ofJson? (j : Json) : Option (Point Float32) :=
  (record? ["x", "y"] j).bind fun fs =>
    (required fs "x" Json.single?).bind fun x =>
      (required fs "y" Json.single?).map fun y => ⟨x, y⟩

def toJson (p : Point Float32) : Json := .object [("x", ofSingle p.x), ("y", ofSingle p.y)]

end Point

namespace Dimension

def ofJson? : Json → Option (Dimension Float32)
  | .number n => some (.number n.toSingle)
  | .text s => some (.text s)
  | _ => none

def toJson : Dimension Float32 → Json
  | .number x => ofSingle x
  | .text s => .text s

end Dimension

namespace Style

def keys : List String := ["width", "height"]

def ofJson? (j : Json) : Option (Style Float32) :=
  (fields? keys j).bind fun fs =>
    (optional fs "width" none (nullable Dimension.ofJson?)).bind fun width =>
      (optional fs "height" none (nullable Dimension.ofJson?)).map fun height =>
        ⟨width, height, unknown keys fs⟩

def toJson (s : Style Float32) : Json :=
  .object (fieldOf "width" Dimension.toJson s.width ++ fieldOf "height" Dimension.toJson s.height
    ++ s.extra.fields)

end Style

namespace Node

def keys : List String :=
  ["id", "type", "parentId", "parentNode", "position", "style", "data"]

/-- The parent under either of its keys, but not under both. -/
def parentOf? (fs : List (String × Json)) : Option (Option String) :=
  match fs.lookup "parentId", fs.lookup "parentNode" with
  | some _, some _ => none
  | some j, none => nullable Json.text? j
  | none, some j => nullable Json.text? j
  | none, none => some none

def ofJson? (j : Json) : Option (Node Float32) :=
  (fields? keys j).bind fun fs =>
    (required fs "id" Json.text?).bind fun id =>
      (optional fs "type" .step fun j => j.text?.map NodeKind.ofName).bind fun kind =>
        (parentOf? fs).bind fun parent =>
          (optional fs "position" Point.origin Point.ofJson?).bind fun position =>
            (optional fs "style" Style.plain Style.ofJson?).map fun style =>
              { id, kind, parent, position, style
                data := Payload.ofJson ((fs.lookup "data").getD .null)
                extra := unknown keys fs }

def toJson (n : Node Float32) : Json :=
  .object ([("id", .text n.id), ("type", .text n.kind.name)]
    ++ fieldOf "parentId" Json.text n.parent
    ++ [("position", n.position.toJson)]
    ++ (if n.style.isEmpty then [] else [("style", n.style.toJson)])
    ++ (if n.data.isNull then [] else [("data", n.data.json)])
    ++ n.extra.fields)

end Node

namespace Edge

def keys : List String := ["id", "source", "target", "type"]

def ofJson? (j : Json) : Option Edge :=
  (fields? keys j).bind fun fs =>
    (optional fs "id" "" Json.text?).bind fun id =>
      (required fs "source" Json.text?).bind fun source =>
        (required fs "target" Json.text?).bind fun target =>
          (optional fs "type" .route fun j => j.text?.map EdgeKind.ofName).map fun kind =>
            { id, source, target, kind, extra := unknown keys fs }

def toJson (e : Edge) : Json :=
  .object ([("id", .text e.id), ("source", .text e.source), ("target", .text e.target),
    ("type", .text e.kind.name)] ++ e.extra.fields)

end Edge

namespace Diagram

def nodesOf? (j : Json) : Option (List (Node Float32)) :=
  j.items?.bind fun js => js.mapM Node.ofJson?

def edgesOf? (j : Json) : Option (List Edge) :=
  j.items?.bind fun js => js.mapM Edge.ofJson?

/-- The two lists by name, or in sequence with the later ones missing. -/
def listsOf? : Json → Option (Diagram Float32)
  | .array [] => some empty
  | .array [ns] => (nodesOf? ns).map fun nodes => ⟨nodes, []⟩
  | .array [ns, es] =>
    (nodesOf? ns).bind fun nodes => (edgesOf? es).map fun edges => ⟨nodes, edges⟩
  | j =>
    (fields? ["nodes", "edges"] j).bind fun fs =>
      (optional fs "nodes" [] nodesOf?).bind fun nodes =>
        (optional fs "edges" [] edgesOf?).map fun edges => ⟨nodes, edges⟩

def ofJson? (j : Json) : Option (Diagram Float32) :=
  (listsOf? j).or ((nodesOf? j).map fun nodes => ⟨nodes, []⟩)

def nodesToJson (ns : List (Node Float32)) : Json := .array (ns.map Node.toJson)

def toJson (d : Diagram Float32) : Json :=
  .object [("nodes", nodesToJson d.nodes), ("edges", .array (d.edges.map Edge.toJson))]

end Diagram

inductive Grammar
  | strict
  | relaxed
  deriving DecidableEq

inductive ReadError
  | empty
  | malformed
  | shape (grammar : Grammar)
  | repeatedId (id : String)

namespace ReadError

def message : ReadError → String
  | .empty => "graph document is empty"
  | .malformed => "invalid graph document"
  | .shape _ =>
    "invalid graph document: data did not match any variant of untagged enum GraphDocument"
  | .repeatedId id => "duplicate node id '" ++ id ++ "'"

end ReadError

namespace Diagram

/-- How many containers may be open at once in a strict text. -/
def depthLimit : Nat := 127

def isAdmitted (j : Json) : Bool := j.isReadable && j.depth ≤ depthLimit

def strictDocument (cs : List Char) : Except ReadError (Diagram Float32) :=
  match Json.Strict.value? cs with
  | none => .error .malformed
  | some (j, rest) =>
    if isAdmitted j then
      match ofJson? j with
      | some d => if rest.isEmpty then .ok d else .error .malformed
      | none => .error (.shape .strict)
    else .error .malformed

def relaxedDocument (cs : List Char) : Except ReadError (Diagram Float32) :=
  match Json.Relaxed.value? cs with
  | none => .error .malformed
  | some j =>
    if j.isReadable then
      match ofJson? j with
      | some d => .ok d
      | none => .error (.shape .relaxed)
    else .error .malformed

/-- The strict grammar comes first. If neither will do, a wrong shape of the strict text is the
cause that counts, and otherwise what the relaxed grammar says. -/
def document (cs : List Char) : Except ReadError (Diagram Float32) :=
  match strictDocument cs with
  | .ok d => .ok d
  | .error e =>
    match relaxedDocument cs with
    | .ok d => .ok d
    | .error e' =>
      match e with
      | .shape g => .error (.shape g)
      | _ => .error e'

def read (text : String) : Except ReadError (Diagram Float32) :=
  match Blank.trim text.toList with
  | [] => .error .empty
  | cs =>
    match document cs with
    | .error e => .error e
    | .ok d =>
      match d.repeated? with
      | some id => .error (.repeatedId id)
      | none => .ok d

def write (d : Diagram Float32) : String := d.toJson.write

end Diagram

def Style.read? (text : String) : Option (Style Float32) :=
  match Json.Strict.value? text.toList with
  | some (j, []) => if Diagram.isAdmitted j then ofJson? j else none
  | _ => none

end FlowCanvas
