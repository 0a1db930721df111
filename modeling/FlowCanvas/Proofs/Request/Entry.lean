import FlowCanvas.Proofs.Command.Run
import FlowCanvas.Proofs.Diagram.RoundTrip
import FlowCanvas.Proofs.Json.Pretty
import FlowCanvas.Proofs.Request.Reply
import FlowCanvas.Proofs.Settings.Read

/-! Three ways in. A patch of the settings may be given as it is, in a file to a command, or wrapped
in the options of an editor, where it is printed and read once more. If the patch is an object with
keys of its own only, then nothing is lost on the way, and all three answer alike. The short forms
of an editor stand for a wrapped patch of the layout. -/

namespace FlowCanvas

open Json (Reads objectText)

namespace Json

def isObject : Json → Bool
  | .object _ => true
  | _ => false

end Json

namespace Patch

/-- An object with keys of its own only, none of them repeated, whose numbers are read back from
what they are written as. -/
structure Fits (j : Json) : Prop where
  object : j.isObject = true
  keys : OwnKeys j
  unrepeated : j.isUnrepeated = true
  numbers : ∀ m ∈ j.numbers, m.reread? = some m

instance : DecidablePred Fits := fun j =>
  decidable_of_iff (j.isObject = true ∧ OwnKeys j ∧ j.isUnrepeated = true ∧
      ∀ m ∈ j.numbers, m.reread? = some m)
    ⟨fun h => ⟨h.1, h.2.1, h.2.2.1, h.2.2.2⟩, fun h => ⟨h.object, h.keys, h.unrepeated, h.numbers⟩⟩

variable {j : Json} {text : String}

theorem read?_of_reads (h : Reads text j) : read? text = ofJson? j := by
  rw [read?, h.value?]

theorem Fits.reads_canonical (h : Fits j) : Reads j.canonical.write j.canonical := by
  have hnumbers : ∀ m ∈ j.canonical.numbers, m.reread? = some m := fun m hm =>
    h.numbers m (j.numbers_canonical hm)
  have hlegible : Json.Legible j.canonical.numbers := fun m hm => by
    rw [hnumbers m hm]
    exact .inl rfl
  have hrecovers : ∀ m ∈ j.canonical.numbers, m.Recovers := by
    intro m hm
    have hread := hnumbers m hm
    cases m with
    | integer i => trivial
    | single x =>
      rw [Number.Recovers, hread]
      rfl
    | double x => exact hread
  have hecho : j.canonical.echo = j.canonical := by
    rw [Json.echo_of_legible hlegible]
    exact Json.reread_of_recovers j.isCanonical_canonical hrecovers
  have hreads := j.canonical.reads_write
  rwa [hecho] at hreads

theorem Fits.ofJson?_canonical (h : Fits j) (hreadable : j.isReadable = true) :
    ofJson? j.canonical = ofJson? j :=
  steady j ⟨hreadable, h.unrepeated, fun m hm => Number.isPortable_of_reread? (h.numbers m hm)⟩

end Patch

theorem LayoutPatch.ofJson?_short (d : String) (n : Number) :
    ∃ p, ofJson? (.object [("direction", .text d), ("gridSize", .number n)]) = some p ∧
      ∀ s, p.apply s = (checkDirection s.direction (some d)).bind fun direction =>
        (checkGrid s.gridSize (some n.toSingle)).map fun gridSize =>
          { s with direction, gridSize } := by
  rw [ofJson?, record?_of_nodup _ (by simp)]
  exact ⟨_, rfl, fun _ => rfl⟩

theorem Patch.ofJson?_layout {fs : List (String × Json)} {p : LayoutPatch Float32}
    (h : LayoutPatch.ofJson? (.object fs) = some p) :
    ofJson? (.object [("layout", .object fs)]) = some ⟨none, none, some p⟩ := by
  have hlayout : part? [("layout", .object fs)] "layout" LayoutPatch.ofJson? =
      (LayoutPatch.ofJson? (.object fs)).map some := rfl
  rw [ofJson?, record?_of_nodup _ (by simp)]
  simp only [Option.bind_eq_bind, Option.bind_some, hlayout, h]
  rfl

namespace EditorOptions

variable {j : Json} {text : String}

theorem read?_of_reads (h : Reads text j) : read? text = ofJson? j := by
  rw [read?, h.value?]

theorem read?_config (h : Reads text j) (hobject : j.isObject = true) :
    read? (objectText [("config", text)]) = (passed? j).map fun c => ⟨.none, .none, some c⟩ := by
  have hreads : Reads (objectText [("config", text)]) (.object [("config", j)]) :=
    Json.reads_objectText (.cons ⟨rfl, h⟩ .nil)
  rw [read?_of_reads hreads]
  cases j with
  | object fs =>
    have hrecord : (Json.object [("config", .object fs)]).record? keys =
        some [("config", .object fs)] := rfl
    have hconfig : part? [("config", .object fs)] "config" passed? =
        (passed? (.object fs)).map some := rfl
    rw [ofJson?, hrecord]
    simp only [Option.bind_eq_bind, Option.bind_some, hconfig]
    cases passed? (.object fs) <;> rfl
  | _ => cases hobject

theorem settings_config (c : Json) :
    settings ⟨.none, .none, some c⟩ = Settings.standard.merge c.write := by
  change (Settings.standard.merge c.write).bind _ = _
  cases Settings.standard.merge c.write <;> rfl

theorem settings_short {d : String} {x : Float32} {p : LayoutPatch Float32}
    (h : ∀ s : LayoutSettings Float32,
      p.apply s = (checkDirection s.direction (some d)).bind fun direction =>
        (checkGrid s.gridSize (some x)).map fun gridSize => { s with direction, gridSize }) :
    settings ⟨some d, some x, .none⟩ = Patch.apply ⟨.none, .none, some p⟩ Settings.standard := by
  change (checkDirection _ _).bind _ = (p.apply Settings.standard.layout).map _
  rw [h]
  cases checkDirection (Settings.standard : Settings Float32).layout.direction (some d) with
  | error e => rfl
  | ok direction =>
    cases checkGrid (Settings.standard : Settings Float32).layout.gridSize (some x) <;> rfl

theorem passed?_eq_some {c : Json} (h : passed? j = some c) :
    j.isReadable = true ∧ c = j.canonical := by
  rw [passed?] at h
  split at h
  · rename_i hpassed
    cases h
    exact ⟨hpassed.1, rfl⟩
  · cases h

/-- What is not passed on is not a patch either, because a patch is not deep. -/
theorem ofJson?_of_passed? (hj : Patch.Fits j) (h : passed? j = .none) :
    Patch.ofJson? j = .none := by
  rw [passed?] at h
  split at h
  · cases h
  · rename_i hpassed
    cases hpatch : Patch.ofJson? j with
    | none => rfl
    | some p =>
      have hwithin := Patch.within hpatch hj.keys hj.unrepeated
      exact absurd ⟨hwithin.readable, Nat.le_trans hwithin.depth (by decide)⟩ hpassed

end EditorOptions

namespace Request

variable {j : Json} {text : String}

theorem given_of_reads (h : Reads text j) : given (some text) = some text := by
  refine given_of_value? ?_
  rw [h.value?]
  nofun

theorem patched_of_reads (h : Reads text j) :
    patched (some text) = (Settings.standard.merge text).mapError RequestError.ofSettings := by
  rw [patched, given_of_reads h]

theorem edited_of_reads (h : Reads text j) {o : EditorOptions}
    (ho : EditorOptions.read? text = some o) :
    edited (some text) = o.settings.mapError RequestError.ofSettings := by
  rw [edited, given_of_reads h]
  simp only [ho]

theorem edited_of_reads_none (h : Reads text j) (ho : EditorOptions.read? text = none) :
    edited (some text) = .error .options := by
  rw [edited, given_of_reads h]
  simp only [ho]

theorem edited_config (h : Reads text j) (hj : Patch.Fits j) :
    edited (some (objectText [("config", text)])) = patched (some text) := by
  have hwrapped : Reads (objectText [("config", text)]) (.object [("config", j)]) :=
    Json.reads_objectText (.cons ⟨rfl, h⟩ .nil)
  have hread := EditorOptions.read?_config h hj.object
  have hpatch := Patch.read?_of_reads h
  rw [patched_of_reads h]
  cases hpassed : EditorOptions.passed? j with
  -- What cannot be looked at or is too deep fails as options, and as a patch too.
  | none =>
    rw [hpassed] at hread
    rw [edited_of_reads_none hwrapped hread, Settings.merge, hpatch,
      EditorOptions.ofJson?_of_passed? hj hpassed]
    rfl
  -- What is passed on is written in canonical form, which is the same patch when it is read again.
  | some c =>
    obtain ⟨hreadable, rfl⟩ := EditorOptions.passed?_eq_some hpassed
    rw [hpassed] at hread
    have hsame : Patch.read? j.canonical.write = Patch.read? text := by
      rw [Patch.read?_of_reads hj.reads_canonical, hj.ofJson?_canonical hreadable, hpatch]
    rw [edited_of_reads hwrapped hread, EditorOptions.settings_config, Settings.merge, hsame,
      Settings.merge]

variable {direction gridSize d : String} {n : Number}

theorem reads_short (hd : Reads direction (.text d)) (hn : Reads gridSize (.number n)) :
    Reads (objectText [("direction", direction), ("gridSize", gridSize)])
      (.object [("direction", .text d), ("gridSize", .number n)]) :=
  Json.reads_objectText (.cons ⟨rfl, hd⟩ (.cons ⟨rfl, hn⟩ .nil))

theorem reads_layout (hd : Reads direction (.text d)) (hn : Reads gridSize (.number n)) :
    Reads (objectText
        [("layout", objectText [("direction", direction), ("gridSize", gridSize)])])
      (.object [("layout", .object [("direction", .text d), ("gridSize", .number n)])]) :=
  Json.reads_objectText (.cons ⟨rfl, reads_short hd hn⟩ .nil)

theorem edited_short (hd : Reads direction (.text d)) (hn : Reads gridSize (.number n)) :
    edited (some (objectText [("direction", direction), ("gridSize", gridSize)])) =
      patched (some (objectText
        [("layout", objectText [("direction", direction), ("gridSize", gridSize)])])) := by
  have hoptions : EditorOptions.read?
      (objectText [("direction", direction), ("gridSize", gridSize)]) =
        some ⟨some d, some n.toSingle, none⟩ :=
    EditorOptions.read?_of_reads (reads_short hd hn)
  obtain ⟨p, hp, happly⟩ := LayoutPatch.ofJson?_short d n
  rw [edited_of_reads (reads_short hd hn) hoptions, patched_of_reads (reads_layout hd hn),
    Settings.merge, Patch.read?_of_reads (reads_layout hd hn), Patch.ofJson?_layout hp]
  exact congrArg _ (EditorOptions.settings_short happly)

theorem fits_short (d : String) {n : Number} (hn : n.reread? = some n) : Patch.Fits
    (.object [("layout", .object [("direction", .text d), ("gridSize", .number n)])]) where
  object := rfl
  keys := ⟨rfl, rfl, rfl, rfl⟩
  unrepeated := rfl
  numbers := by
    intro m hm
    rw [List.mem_singleton.mp hm]
    exact hn

end Request

namespace RequestError

def report (e : RequestError) : String :=
  match e.message? with
  | some message => "error: " ++ message
  | none => "error"

theorem report_ofSettings (e : SettingsError) :
    (Command.Failure.settings e).report = (ofSettings e).report := by
  cases e <;> rfl

theorem report_document (e : ReadError) :
    (Command.Failure.document e).report = (document e).report := rfl

end RequestError

namespace Request

open Command (World Arguments Libraries)

/-- A command answers like a request: where there is a reply, it prints a text of the same value,
where there is none, it names the reason and prints nothing, and where a request never comes back,
it does not either. -/
inductive Answers (w : World) :
    Option (Except RequestError String) → Option (Nat × World) → Prop
  | reply {out printed : String} {j : Json} (hout : Reads out j) (hprinted : Reads printed j) :
    Answers w (some (.ok out)) (some (0, { w with output := w.output ++ printed }))
  | failure (e : RequestError) :
    Answers w (some (.error e)) (some (1, { w with complaints := w.complaints ++ [e.report] }))
  | never : Answers w none none

variable {w : World} {words : List String} {path config input text : String} {j : Json}

theorem answers_execute (libraries : Libraries Option) (h : Reads text j)
    (hwords : Arguments.read words = .ok (.arrange (World.arguments path config)))
    (hfile : Command.Path.isInput path = false) (hinput : w.disk.read path = .ok input)
    (hconfig : w.disk.read config = .ok text) :
    Answers w (patchReply libraries.dagre input (some text)) (w.executeWith libraries words) := by
  have hpatch := patched_of_reads h
  rw [World.executeWith_arrange libraries hwords w]
  cases hmerge : Settings.standard.merge text with
  | error e =>
    have hreply : patchReply libraries.dagre input (some text) =
        some (.error (.ofSettings e)) := by
      rw [patchReply, hpatch, hmerge]
      rfl
    rw [hreply, World.run_unsettled libraries hconfig hmerge, Option.map_some, Command.conclude,
      RequestError.report_ofSettings]
    exact .failure _
  | ok s =>
    rw [hmerge] at hpatch
    cases hread : Diagram.read input with
    | error e =>
      have harrange : arrange libraries.dagre s input = some (.error (.document e)) := by
        rw [arrange, hread]
        rfl
      have hreply : patchReply libraries.dagre input (some text) =
          some (.error (.document e)) := by
        rw [patchReply, hpatch]
        exact harrange
      rw [hreply, World.run_undocumented libraries hfile hconfig hmerge hinput hread,
        Option.map_some, Command.conclude, RequestError.report_document]
      exact .failure _
    | ok d =>
      rw [patchReply_of_read libraries.dagre hread hmerge,
        World.run_arranges libraries hfile hconfig hmerge hinput hread]
      cases d.arrangeBy libraries.dagre s.layout with
      | none => exact .never
      | some arranged => exact .reply (Json.reads_write _) (Json.reads_pretty _)

/-- Whichever way a patch of the settings comes in, plain, wrapped in the options of an editor or in
a file to a command, the answer is the same reply or the same first fault, whatever dagre does where
it is asked for. The short forms of an editor are answered like the patch that they stand for. -/
theorem entries_agree (libraries : Libraries Option) (input : String) :
    (∀ text j, Reads text j → Patch.Fits j →
      editorReply libraries.dagre input (some (objectText [("config", text)])) =
        patchReply libraries.dagre input (some text) ∧
      ∀ (w : World) (words : List String) (path config : String),
        Arguments.read words = .ok (.arrange (World.arguments path config)) →
        Command.Path.isInput path = false → w.disk.read path = .ok input →
        w.disk.read config = .ok text →
        Answers w (patchReply libraries.dagre input (some text))
          (w.executeWith libraries words)) ∧
    ∀ direction gridSize d n, Reads direction (.text d) → Reads gridSize (.number n) →
      n.reread? = some n →
      editorReply libraries.dagre input
          (some (objectText [("direction", direction), ("gridSize", gridSize)])) =
        editorReply libraries.dagre input (some (objectText [("config", objectText
          [("layout", objectText [("direction", direction), ("gridSize", gridSize)])])])) := by
  refine ⟨fun text j h hj => ⟨?_, fun w words path config hwords hfile hinput hconfig =>
    answers_execute libraries h hwords hfile hinput hconfig⟩,
    fun direction gridSize d n hd hn hnumber => ?_⟩
  · rw [editorReply, edited_config h hj, patchReply]
  · rw [editorReply, edited_short hd hn, editorReply,
      edited_config (reads_layout hd hn) (fits_short d hnumber)]

theorem entries_agree_nested :
    let libraries : Libraries Option := ⟨.lone, none⟩
    let input := "[\x7b\"id\":\"a\"\x7d]"
    let text := "\x7b\"theme\":\"classic\",\"layout\":\x7b\"gridSize\":0.5," ++
      "\"engine\":\x7b\"dagre\":null\x7d,\"tools\":\x7b\"gap\":30\x7d\x7d\x7d"
    let w : World := .start "" ⟨[], [(["g"], .text input), (["c"], .text text)]⟩
    let short := [("direction", "\"LR\""), ("gridSize", "0.5")]
    (∃ j, Reads text j ∧ Patch.Fits j) ∧
      editorReply libraries.dagre input (some (objectText [("config", text)])) =
        patchReply libraries.dagre input (some text) ∧
      Answers w (patchReply libraries.dagre input (some text))
        (w.executeWith libraries ["-i", "g", "-c", "c"]) ∧
      (∃ out, patchReply libraries.dagre input (some text) = some (.ok out)) ∧
      editorReply libraries.dagre input (some (objectText short)) =
        editorReply libraries.dagre input
          (some (objectText [("config", objectText [("layout", objectText short)])])) := by
  intro libraries input text w short
  obtain ⟨j, hreads, hcheck⟩ := Json.exists_reads_of_check text (fun j => decide (Patch.Fits j))
    (by decide +kernel)
  have hfits : Patch.Fits j := of_decide_eq_true hcheck
  have hdirection : Reads "\"LR\"" (.text "LR") := by with_unfolding_all rfl
  have hgrid : Reads "0.5" (.number (.double 0.5)) := by with_unfolding_all rfl
  have hnumber : (Number.double 0.5).reread? = some (.double 0.5) := by decide +kernel
  obtain ⟨hways, hshort⟩ := entries_agree libraries input
  obtain ⟨heditor, hcommand⟩ := hways text j hreads hfits
  obtain ⟨d, s, hread, hmerge, hsome⟩ := exists_of_check input text
    (fun d s => (d.arrangeBy libraries.dagre s.layout).isSome) (by decide +kernel)
  obtain ⟨arranged, harranged⟩ := Option.isSome_iff_exists.mp hsome
  have hreply := patchReply_of_read libraries.dagre hread hmerge
  rw [harranged] at hreply
  exact ⟨⟨j, hreads, hfits⟩, heditor, hcommand w _ "g" "c" rfl rfl rfl rfl, ⟨_, hreply⟩,
    hshort _ _ "LR" _ hdirection hgrid hnumber⟩

end Request

end FlowCanvas
