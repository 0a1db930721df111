import FlowCanvas.Arrangement
import FlowCanvas.Settings.Patch

/-!
Requests: a document and options in, the arranged document out. Options are the text of a patch of
the settings; the options of an editor wrap such a patch and have short forms for the direction and
the grid. Options count before the document does, so of two faults the one in the options is named.
-/

namespace FlowCanvas

inductive RequestError
  | options
  | settings (e : SettingsError)
  | document (e : ReadError)

namespace RequestError

def ofSettings : SettingsError → RequestError
  | .malformed => .options
  | e => .settings e

/-- What to tell the editor; nothing is said about options that are no patch at all. -/
def message? : RequestError → Option String
  | .options => none
  | .settings e => e.message?
  | .document e => some e.message

end RequestError

structure EditorOptions where
  direction : Option String
  gridSize : Option Float32
  config : Option Json

namespace EditorOptions

def none : EditorOptions := ⟨.none, .none, .none⟩

def keys : List String := ["direction", "gridSize", "config"]

def depthLimit : Nat := Diagram.depthLimit - 1

def passed? (j : Json) : Option Json :=
  if j.isReadable ∧ j.depth ≤ depthLimit then some j.canonical else .none

def ofJson? (j : Json) : Option EditorOptions := do
  let fs ← j.record? keys
  let direction ← part? fs "direction" Json.text?
  let gridSize ← part? fs "gridSize" Json.single?
  let config ← part? fs "config" passed?
  return { direction, gridSize, config }

def read? (text : String) : Option EditorOptions :=
  match Json.Strict.value? text.toList with
  | some (j, []) => ofJson? j
  | _ => .none

/-- The settings that the options ask for: the patch first, then the short forms over it. -/
def settings (o : EditorOptions) : Except SettingsError (Settings Float32) :=
  let patched := match o.config with
    | some j => Settings.standard.merge j.write
    | .none => .ok Settings.standard
  patched.bind fun s =>
    (checkDirection s.layout.direction o.direction).bind fun direction =>
      (checkGrid s.layout.gridSize o.gridSize).map fun gridSize =>
        { s with layout := { s.layout with direction, gridSize } }

end EditorOptions

namespace Request

def given (options : Option String) : Option String :=
  options.filter fun text => !text.toList.all Blank.isBlank

def patched (options : Option String) : Except RequestError (Settings Float32) :=
  match given options with
  | none => .ok Settings.standard
  | some text => (Settings.standard.merge text).mapError RequestError.ofSettings

def edited (options : Option String) : Except RequestError (Settings Float32) :=
  match given options with
  | none => .ok Settings.standard
  | some text =>
    match EditorOptions.read? text with
    | none => .error .options
    | some o => o.settings.mapError RequestError.ofSettings

section Replies

variable {m : Type → Type} [Monad m] (dagre : Dagre m Float32)

def arrange (s : Settings Float32) (input : String) : m (Except RequestError String) :=
  match Diagram.read input with
  | .ok d => (fun a => .ok (Diagram.write ⟨a.nodes, d.edges⟩)) <$> d.arrangeBy dagre s.layout
  | .error e => pure (.error (.document e))

def reply (settings : Except RequestError (Settings Float32)) (input : String) :
    m (Except RequestError String) :=
  match settings with
  | .ok s => arrange dagre s input
  | .error e => pure (.error e)

def patchReply (input : String) (options : Option String) : m (Except RequestError String) :=
  reply dagre (patched options) input

def editorReply (input : String) (options : Option String) : m (Except RequestError String) :=
  reply dagre (edited options) input

end Replies

/-! There is no library of dagre here, so that every request has a reply. -/

def ofPatch (input : String) (options : Option String) : Except RequestError String :=
  (patchReply Dagre.idle input options : Id _).run

def ofEditor (input : String) (options : Option String) : Except RequestError String :=
  (editorReply Dagre.idle input options : Id _).run

end Request

end FlowCanvas
