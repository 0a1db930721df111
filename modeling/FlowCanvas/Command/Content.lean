import FlowCanvas.Settings

/-!
What a command writes to files: texts and images. Images come from a library that paints SVG, which
a program may be built without. What the library does is not said here, only where it can refuse.
-/

namespace FlowCanvas.Command

inductive Content
  | text (t : String)
  | image (bytes : ByteArray)

def Content.isText (t : String) : Content → Bool
  | .text other => other == t
  | .image _ => false

/-- A library that paints SVG. It reads a drawing as a tree, for a default size, paints trees on
canvases of theirs, and encodes what is on a canvas. -/
structure Painter where
  Tree : Type
  Canvas : Type
  size? : Float32 → Float32 → Option (Size Float32)
  parse : Size Float32 → String → Except String Tree
  canvas? : Tree → Option Canvas
  paint : Tree → Canvas → Canvas
  encode : Canvas → Except String ByteArray

inductive PaintError
  | size
  | canvas
  | library (reason : String)

namespace PaintError

def message : PaintError → String
  | .size => "Invalid render size"
  | .canvas => "Failed to allocate pixmap"
  | .library reason => reason

end PaintError

namespace Painter

variable (painter : Painter)

def image (p : PreviewSettings Float32) (svg : String) : Except PaintError ByteArray :=
  match painter.size? p.width p.height with
  | none => .error .size
  | some size =>
    match painter.parse size svg with
    | .error reason => .error (.library reason)
    | .ok tree =>
      match painter.canvas? tree with
      | none => .error .canvas
      | some canvas => (painter.encode (painter.paint tree canvas)).mapError .library

end Painter

end FlowCanvas.Command
