import FlowCanvas.Arrangement.Finding
import FlowCanvas.Arrangement.Summary
import FlowCanvas.Command.Arguments
import FlowCanvas.Command.Content
import FlowCanvas.Command.Path
import FlowCanvas.Picture.Svg
import FlowCanvas.Settings.Patch

/-!
Running a command: read the settings and the document, arrange it, write the summary if one is asked
for, check, and deliver the result to a file or to the output. The first thing that fails ends the
run. What a command asks of the machine under it is a `Host`, so that a run can be looked at on any
machine that reads, writes and prints, and what it asks of libraries is in `Libraries`.
-/

namespace FlowCanvas.Command

structure Host (m : Type → Type) where
  input : m (Except String String)
  read : String → m (Except String String)
  write : String → Content → m (Except String Unit)
  print : String → m Unit
  complain : String → m Unit

/-- The libraries that a program is built with. An image takes one that paints. -/
structure Libraries (m : Type → Type) where
  dagre : Dagre m Float32
  painter? : Option Painter

namespace Libraries

variable {m : Type → Type} [Monad m]

def none : Libraries m := ⟨Dagre.idle, .none⟩

def lift {n : Type → Type} [MonadLift n m] (libraries : Libraries n) : Libraries m :=
  ⟨libraries.dagre.lift, libraries.painter?⟩

end Libraries

inductive Failure
  | host (reason : String)
  | settings (e : SettingsError)
  | document (e : ReadError)
  | checks (count : Nat)
  | noOutputPath
  | noPicture
  | noPng
  | image (e : PaintError)

namespace Failure

/-- The exit status of a run that fails. To find no picture is not foreseen. -/
def status : Failure → Nat
  | .noPicture => 101
  | _ => 1

def message? : Failure → Option String
  | .host reason => some reason
  | .settings e => e.message?
  | .document e => some e.message
  | .checks count => some (String.ofList (Nat.toDigits 10 count) ++ " layout check(s) failed")
  | .noOutputPath => some "Output path required for png output"
  | .noPicture => some "the groups have no order by size"
  | .noPng => some "PNG output requires the \x60png\x60 feature"
  | .image e => some e.message

def report (e : Failure) : String :=
  match e.message? with
  | some message => "error: " ++ message
  | none => "error"

end Failure

variable {m : Type → Type} [Monad m] (host : Host m) (libraries : Libraries m) (a : Arguments)

def ask {β : Type} (x : m (Except String β)) : ExceptT Failure m β :=
  ExceptT.mk ((·.mapError Failure.host) <$> x)

def tell (x : m Unit) : ExceptT Failure m Unit := ExceptT.lift x

def configured : ExceptT Failure m (Settings Float32) :=
  match a.config with
  | none => pure Settings.standard
  | some path => do
    let text ← ask (host.read path)
    ExceptT.mk (pure ((Settings.standard.merge text).mapError Failure.settings))

def resize (p : PreviewSettings Float32) : PreviewSettings Float32 :=
  { p with
    width := a.width.getD p.width
    height := a.height.getD p.height }

def settings : ExceptT Failure m (Settings Float32) := do
  let s ← configured host a
  return { s with preview := resize a s.preview }

def documentText : ExceptT Failure m String :=
  match a.input with
  | none => ask host.input
  | some path => if Path.isInput path then ask host.input else ask (host.read path)

def document : ExceptT Failure m (Diagram Float32) := do
  let text ← documentText host a
  ExceptT.mk (pure ((Diagram.read text).mapError Failure.document))

def summarize (s : LayoutSettings Float32) (d : Diagram Float32) (arranged : Arrangement Float32) :
    ExceptT Failure m Unit :=
  match a.dump with
  | none => pure ()
  | some path => ask (host.write path (.text (arranged.summary s d.edges).pretty))

def complainAll : List (Finding Float32) → m Unit
  | [] => pure ()
  | finding :: rest => do
    host.complain ("check: " ++ finding.message)
    complainAll rest

def check (s : LayoutSettings Float32) (d : Diagram Float32) (arranged : Arrangement Float32) :
    ExceptT Failure m Unit :=
  let findings := arranged.check s d
  if !a.check || findings.isEmpty then pure ()
  else do
    tell (complainAll host findings)
    throw (.checks findings.length)

def deliver (text ending : String) : ExceptT Failure m Unit :=
  match a.output with
  | some path => ask (host.write path (.text text))
  | none => tell (host.print (text ++ ending))

def picture (s : Settings Float32) (d : Diagram Float32) (arranged : Arrangement Float32) :
    ExceptT Failure m String :=
  match arranged.svg? d.edges s.theme s.preview with
  | some text => pure text
  | none => throw .noPicture

def deliverImage (path : String) (p : PreviewSettings Float32) (svg : String) :
    ExceptT Failure m Unit :=
  match libraries.painter? with
  | none => throw .noPng
  | some painter => do
    let image ← ExceptT.mk (pure ((painter.image p svg).mapError Failure.image))
    ask (host.write path (.image image))

def deliverArrangement (s : Settings Float32) (d : Diagram Float32)
    (arranged : Arrangement Float32) : ExceptT Failure m Unit :=
  match a.format.getD .json with
  | .json => deliver host a (Diagram.toJson ⟨arranged.nodes, d.edges⟩).pretty "\n"
  | .svg => do
    let text ← picture s d arranged
    deliver host a text ""
  | .png =>
    match a.output with
    | none => throw .noOutputPath
    | some path => do
      let text ← picture s d arranged
      deliverImage host libraries path s.preview text

def run : ExceptT Failure m Unit := do
  let s ← settings host a
  let d ← document host a
  let arranged ← ExceptT.lift (d.arrangeBy libraries.dagre s.layout)
  summarize host a s.layout d arranged
  check host a s.layout d arranged
  deliverArrangement host libraries a s d arranged

def versionText : String := "flowlayout 0.1.0\n"

def helpText : String :=
  "Auto-layout for agent flow graphs (steps, tools, groups)\n\n" ++
  "Usage: flowlayout [OPTIONS]\n\nOptions:\n" ++
  "  -i, --input <INPUT>                 " ++
  "Input graph document (.json / .json5) or '-' for stdin\n" ++
  "  -o, --output <OUTPUT>               " ++
  "Output file. Defaults to stdout for JSON and SVG\n" ++
  "  -e, --outputFormat <OUTPUT_FORMAT>  " ++
  "Output format [default: json] [possible values: json, svg, png]\n" ++
  "  -c, --configFile <CONFIG>           " ++
  "Config JSON file (layout constants and preview theme)\n" ++
  "  -w, --width <WIDTH>                 Preview width\n" ++
  "  -H, --height <HEIGHT>               Preview height\n" ++
  "      --check                         " ++
  "Check the computed layout and exit non-zero on violations\n" ++
  "      --dumpLayout <DUMP_LAYOUT>      " ++
  "Write absolute node rectangles as JSON to this path\n" ++
  "  -h, --help                          Print help\n" ++
  "  -V, --version                       Print version\n"

/-- Runs a command line and gives its exit status: zero if all went well, two if the words made no
sense, and else that of the failure. -/
def execute (words : List String) : m Nat :=
  match Arguments.read words with
  | .error e => do
    host.complain ("error: " ++ e.message)
    return 2
  | .ok .help => do
    host.print helpText
    return 0
  | .ok .version => do
    host.print versionText
    return 0
  | .ok (.arrange a) => do
    match ← (run host libraries a).run with
    | .ok () => return 0
    | .error e =>
      host.complain e.report
      return e.status

end FlowCanvas.Command
