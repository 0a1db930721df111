import FlowCanvas.Proofs.Arrangement.Engine
import FlowCanvas.Proofs.Command.Disk
import FlowCanvas.Proofs.Command.Run

/-! How a command ends. A run is a row of parts, of which each comes to a result or fails, and what
holds of the world in which it fails is carried from part to part; arranging may also never come to
an end. So a command that fails has printed nothing and written at most the summary, after all that
it reads had been accepted; one that does well has delivered the document to one place. -/

namespace FlowCanvas.Command

section Ends

variable {β γ : Type} {w w' : World} {P : β → World → Prop} {Q : World → Prop} {R : Prop}

/-- Started in a world, a part of a run comes to a result with `P`, or it fails with `Q`, or it
never comes to an end, with `R`. -/
inductive Ends (x : ExceptT Failure (StateT World Option) β) (w : World) (P : β → World → Prop)
    (Q : World → Prop) (R : Prop) : Prop
  | ok {b : β} {w' : World} (h : x.run w = some (.ok b, w')) (hP : P b w')
  | error {e : Failure} {w' : World} (h : x.run w = some (.error e, w')) (hQ : Q w')
  | never (h : x.run w = none) (hR : R)

theorem Ends.mapError {ε : Type} {x : ExceptT Failure (StateT World Option) β} {y : Except ε β}
    {f : ε → Failure} (h : x.run w = some (y.mapError f, w')) (hok : ∀ b, y = .ok b → P b w')
    (herror : ∀ e, y = .error e → Q w') : Ends x w P Q R := by
  cases y with
  | error e => exact .error h (herror e rfl)
  | ok b => exact .ok h (hok b rfl)

theorem Ends.ask {x : StateT World Option (Except String β)} {y : Except String β}
    (h : x w = some (y, w')) (hok : ∀ b, y = .ok b → P b w') (herror : ∀ e, y = .error e → Q w') :
    Ends (ask x) w P Q R := by
  have hrun : (Command.ask x).run w = some (y.mapError .host, w') := by
    change StateT.map _ x w = _
    rw [StateT.map, h]
    rfl
  exact .mapError hrun hok herror

theorem Ends.mono {P' : β → World → Prop} {x : ExceptT Failure (StateT World Option) β}
    (h : Ends x w P Q R) (hP : ∀ b w', P b w' → P' b w') : Ends x w P' Q R := by
  cases h with
  | ok h hb => exact .ok h (hP _ _ hb)
  | error h hQ => exact .error h hQ
  | never h hR => exact .never h hR

theorem Ends.pure {b : β} (h : P b w) : Ends (Pure.pure b) w P Q R := .ok rfl h

theorem Ends.throw {e : Failure} (h : Q w) : Ends (MonadExcept.throw e) w P Q R := .error rfl h

theorem Ends.bind {P' : γ → World → Prop} {x : ExceptT Failure (StateT World Option) β}
    {f : β → ExceptT Failure (StateT World Option) γ} (hx : Ends x w P Q R)
    (hf : ∀ b w', P b w' → Ends (f b) w' P' Q R) : Ends (x >>= f) w P' Q R := by
  cases hx with
  | error h hQ => exact .error (run_bind_error h f) hQ
  | never h hR => exact .never (run_bind_none h f) hR
  | ok h hP =>
    cases hf _ _ hP with
    | ok h' hP' => exact .ok ((run_bind_ok h f).trans h') hP'
    | error h' hQ => exact .error ((run_bind_ok h f).trans h') hQ
    | never h' hR => exact .never ((run_bind_ok h f).trans h') hR

theorem Ends.tell {P : Unit → World → Prop} {x : StateT World Option Unit}
    (h : x w = some ((), w')) (hP : P () w') : Ends (tell x) w P Q R := by
  have hrun : (Command.tell x).run w = some (.ok (), w') := by
    change StateT.map Except.ok x w = _
    rw [StateT.map, h]
    rfl
  exact .ok hrun hP

end Ends

section Reading

variable {Q : World → Prop} {R : Prop}

inductive Access.Configures (access : Access) (w : World) :
    Option String → Settings Float32 → Prop
  | standard : Configures access w none Settings.standard
  | file {path text : String} {s : Settings Float32} (hread : access.read path w = .ok text)
    (hmerge : Settings.standard.merge text = .ok s) : Configures access w (some path) s

inductive Access.Provides (access : Access) (w : World) : Option String → String → Prop
  | input {text : String} (h : access.input w = .ok text) : Provides access w none text
  | dash {path text : String} (hpath : Path.isInput path = true) (h : access.input w = .ok text) :
    Provides access w (some path) text
  | file {path text : String} (hpath : Path.isInput path = false)
    (h : access.read path w = .ok text) : Provides access w (some path) text

structure Access.Accepts (access : Access) (a : Arguments) (w : World) (s : Settings Float32)
    (d : Diagram Float32) : Prop where
  settings : ∃ t, access.Configures w a.config t ∧ s = { t with preview := resize a t.preview }
  document : ∃ text, access.Provides w a.input text ∧ Diagram.read text = .ok d

variable (access : Access) (a : Arguments) {w : World}

theorem ends_input {P : String → World → Prop} (hP : ∀ text, access.input w = .ok text → P text w)
    (hQ : Q w) : Ends (ask access.host.input) w P Q R :=
  .ask rfl hP fun _ _ => hQ

theorem ends_read {P : String → World → Prop} {path : String}
    (hP : ∀ text, access.read path w = .ok text → P text w) (hQ : Q w) :
    Ends (ask (access.host.read path)) w P Q R :=
  .ask rfl hP fun _ _ => hQ

theorem ends_configured (hQ : Q w) : Ends (configured access.host a) w
    (fun t w' => w' = w ∧ access.Configures w a.config t) Q R := by
  rw [configured]
  cases a.config with
  | none => exact .pure ⟨rfl, .standard⟩
  | some path =>
    refine (ends_read access (P := fun text w' => w' = w ∧ access.read path w = .ok text)
      (fun _ h => ⟨rfl, h⟩) hQ).bind ?_
    rintro text _ ⟨rfl, hread⟩
    exact .mapError rfl (fun _ h => ⟨rfl, .file hread h⟩) fun _ _ => hQ

theorem ends_settings (hQ : Q w) :
    Ends (settings access.host a) w (fun s w' => w' = w ∧
      ∃ t, access.Configures w a.config t ∧ s = { t with preview := resize a t.preview }) Q R := by
  refine (ends_configured access a hQ).bind ?_
  rintro t _ ⟨rfl, ht⟩
  exact .pure ⟨rfl, t, ht, rfl⟩

theorem ends_documentText (hQ : Q w) :
    Ends (documentText access.host a) w
      (fun text w' => w' = w ∧ access.Provides w a.input text) Q R := by
  rw [documentText]
  cases a.input with
  | none => exact ends_input access (fun _ h => ⟨rfl, .input h⟩) hQ
  | some path =>
    cases hpath : Path.isInput path with
    | true =>
      simp only [hpath, if_true]
      exact ends_input access (fun _ h => ⟨rfl, .dash hpath h⟩) hQ
    | false =>
      simp only [hpath, Bool.false_eq_true, if_false]
      exact ends_read access (fun _ h => ⟨rfl, .file hpath h⟩) hQ

theorem ends_document (hQ : Q w) :
    Ends (document access.host a) w (fun d w' => w' = w ∧
      ∃ text, access.Provides w a.input text ∧ Diagram.read text = .ok d) Q R := by
  refine (ends_documentText access a hQ).bind ?_
  rintro text _ ⟨rfl, htext⟩
  exact .mapError rfl (fun _ h => ⟨rfl, text, htext, h⟩) fun _ _ => hQ

end Reading

section Writing

variable {Q : World → Prop} {R : Prop} (access : Access) (a : Arguments) {w : World}

theorem ends_write {P : Unit → World → Prop} {path : String} {content : Content}
    (hP : ∀ w', w'.output = w.output → Disk.Wrote path content w.disk w'.disk → P () w')
    (hQ : Q w) : Ends (ask (access.host.write path content)) w P Q R := by
  cases hdenied : access.denied? path w with
  | some reason =>
    have hwrite : access.host.write path content w = some (.error reason, w) := by
      simp only [Access.host, hdenied]
      rfl
    exact .ask hwrite nofun fun _ _ => hQ
  | none =>
    have hwrite : access.host.write path content w = some (w.write path content) := by
      simp only [Access.host, hdenied]
      rfl
    rw [World.write] at hwrite
    cases hdisk : w.disk.write path content with
    | error e =>
      rw [hdisk] at hwrite
      exact .ask hwrite nofun fun _ _ => hQ
    | ok disk =>
      rw [hdisk] at hwrite
      exact .ask hwrite (fun _ _ => hP _ rfl (Disk.wrote_of_write hdisk)) nofun

structure Summarized (a : Arguments) (before after : World) : Prop where
  output : after.output = before.output
  tree : Disk.SameTree before.disk after.disk
  disk : before.disk.SameBut after.disk { path | a.dump = some path }

theorem ends_summarize (s : LayoutSettings Float32) (d : Diagram Float32)
    (arranged : Arrangement Float32) (hQ : Q w) :
    Ends (summarize access.host a s d arranged) w (fun _ w' => Summarized a w w') Q R := by
  rw [summarize]
  cases hdump : a.dump with
  | none => exact .pure ⟨rfl, .refl _, .refl _ _⟩
  | some path =>
    refine ends_write access (fun w' houtput hwrote => ⟨houtput, hwrote.tree, ?_⟩) hQ
    exact hwrote.elsewhere.mono (Set.singleton_subset_iff.mpr hdump)

theorem run_complainAll (findings : List (Finding Float32)) (w : World) :
    ∃ complaints, complainAll access.host findings w = some ((), { w with complaints }) := by
  induction findings generalizing w with
  | nil => exact ⟨w.complaints, rfl⟩
  | cons finding rest ih =>
    exact ih { w with complaints := w.complaints ++ ["check: " ++ finding.message] }

theorem ends_check (s : LayoutSettings Float32) (d : Diagram Float32)
    (arranged : Arrangement Float32) (hQ : ∀ complaints, Q { w with complaints }) :
    Ends (check access.host a s d arranged) w
      (fun _ w' => w' = w ∧ (a.check = true → arranged.check s d = [])) Q R := by
  rw [check]
  split
  · rename_i h
    refine .pure ⟨rfl, fun hcheck => ?_⟩
    rw [hcheck] at h
    exact List.isEmpty_iff.mp h
  · obtain ⟨complaints, hrun⟩ := run_complainAll access (arranged.check s d) w
    refine (Ends.tell (P := fun _ w' => w' = { w with complaints }) hrun rfl).bind ?_
    rintro _ _ rfl
    exact .throw (hQ _)

/-- One place receives what is delivered: the output, if it is a text, where `ending` follows it, or
else a file. -/
inductive Received (a : Arguments) (before : World) (ending : String) (after : World) :
    Content → Prop
  | printed {text : String} (h : a.output = none)
    (houtput : after.output = before.output ++ (text ++ ending)) :
    Received a before ending after (.text text)
  | written {content : Content} {path : String} (h : a.output = some path)
    (houtput : after.output = before.output)
    (hcontent : after.disk.content path = .ok content) : Received a before ending after content

structure Delivered (a : Arguments) (before : World) (content : Content) (ending : String)
    (after : World) : Prop where
  received : Received a before ending after content
  disk : before.disk.SameBut after.disk { path | a.dump = some path ∨ a.output = some path }

section Delivering

variable {P : Unit → World → Prop} {w₀ : World} (hw : Summarized a w₀ w)

include hw

theorem ends_deliverTo {content : Content} {path ending : String} (houtput : a.output = some path)
    (hP : ∀ w', Delivered a w₀ content ending w' → P () w') (hQ : Q w) :
    Ends (ask (access.host.write path content)) w P Q R := by
  refine ends_write access (fun w' hprinted hwrote => hP w' ?_) hQ
  have hdump : w₀.disk.SameBut w.disk { path | a.dump = some path ∨ a.output = some path } :=
    hw.disk.mono fun _ hdump => .inl hdump
  have hpath : {path} ⊆ { path | a.dump = some path ∨ a.output = some path } :=
    Set.singleton_subset_iff.mpr (.inr houtput)
  exact ⟨.written houtput (hprinted.trans hw.output) hwrote.content,
    hdump.trans hw.tree (hwrote.elsewhere.mono hpath)⟩

theorem ends_deliver {text ending : String}
    (hP : ∀ w', Delivered a w₀ (.text text) ending w' → P () w') (hQ : Q w) :
    Ends (deliver access.host a text ending) w P Q R := by
  rw [deliver]
  cases houtput : a.output with
  | none =>
    have hprinted : w.output ++ (text ++ ending) = w₀.output ++ (text ++ ending) := by
      rw [hw.output]
    exact .tell rfl (hP _ ⟨.printed houtput hprinted, hw.disk.mono fun _ hdump => .inl hdump⟩)
  | some path => exact ends_deliverTo access a hw houtput hP hQ

end Delivering

theorem ends_picture (s : Settings Float32) (d : Diagram Float32) (arranged : Arrangement Float32)
    (hQ : Q w) : Ends (picture s d arranged) w (fun text w' => w' = w ∧
      arranged.svg? d.edges s.theme s.preview = some text) Q R := by
  rw [picture]
  cases hpicture : arranged.svg? d.edges s.theme s.preview with
  | none => exact .throw hQ
  | some text => exact .pure ⟨rfl, rfl⟩

inductive Painter.Paints (painter : Painter) (p : PreviewSettings Float32) (svg : String)
    (bytes : ByteArray) : Prop
  | intro {size : Size Float32} {tree : painter.Tree} {canvas : painter.Canvas}
    (hsize : painter.size? p.width p.height = some size)
    (hparse : painter.parse size svg = .ok tree) (hcanvas : painter.canvas? tree = some canvas)
    (hencode : painter.encode (painter.paint tree canvas) = .ok bytes)

theorem Painter.paints_of_image {painter : Painter} {p : PreviewSettings Float32} {svg : String}
    {bytes : ByteArray} (h : painter.image p svg = .ok bytes) : painter.Paints p svg bytes := by
  rw [image] at h
  cases hsize : painter.size? p.width p.height with
  | none => simp only [hsize, reduceCtorEq] at h
  | some size =>
    simp only [hsize] at h
    cases hparse : painter.parse size svg with
    | error reason => simp only [hparse, reduceCtorEq] at h
    | ok tree =>
      simp only [hparse] at h
      cases hcanvas : painter.canvas? tree with
      | none => simp only [hcanvas, reduceCtorEq] at h
      | some canvas =>
        simp only [hcanvas] at h
        cases hencode : painter.encode (painter.paint tree canvas) with
        | error reason =>
          rw [hencode] at h
          cases h
        | ok image =>
          rw [hencode] at h
          cases h
          exact ⟨hsize, hparse, hcanvas, hencode⟩

variable (libraries : Libraries Option)

inductive Renders (s : Settings Float32) (d : Diagram Float32) (arranged : Arrangement Float32) :
    OutputFormat → Content → String → Prop
  | json : Renders s d arranged .json
      (.text (Diagram.toJson ⟨arranged.nodes, d.edges⟩).pretty) "\n"
  | svg {text : String} (h : arranged.svg? d.edges s.theme s.preview = some text) :
    Renders s d arranged .svg (.text text) ""
  | png {painter : Painter} {text : String} {bytes : ByteArray}
    (hpainter : libraries.painter? = some painter)
    (h : arranged.svg? d.edges s.theme s.preview = some text)
    (hpaints : painter.Paints s.preview text bytes) : Renders s d arranged .png (.image bytes) ""

theorem ends_deliverArrangement {w₀ : World} (hw : Summarized a w₀ w) (s : Settings Float32)
    (d : Diagram Float32) (arranged : Arrangement Float32) (hQ : Q w) :
    Ends (deliverArrangement access.host libraries.lift a s d arranged) w (fun _ w' =>
      ∃ content ending, Renders libraries s d arranged (a.format.getD .json) content ending ∧
        Delivered a w₀ content ending w') Q R := by
  rw [deliverArrangement]
  cases a.format.getD .json with
  | json => exact ends_deliver access a hw (fun _ h => ⟨_, _, .json, h⟩) hQ
  | svg =>
    refine (ends_picture s d _ hQ).bind ?_
    rintro text _ ⟨rfl, hpicture⟩
    exact ends_deliver access a hw (fun _ h => ⟨_, _, .svg hpicture, h⟩) hQ
  | png =>
    dsimp only
    cases houtput : a.output with
    | none => exact .throw hQ
    | some path =>
      refine (ends_picture s d _ hQ).bind ?_
      rintro text _ ⟨rfl, hpicture⟩
      rw [deliverImage, Libraries.lift_painter?]
      cases hpainter : libraries.painter? with
      | none => exact .throw hQ
      | some painter =>
        refine (Ends.mapError (P := fun bytes w' => w' = _ ∧ painter.Paints s.preview text bytes)
          rfl (fun _ h => ⟨rfl, Painter.paints_of_image h⟩) fun _ _ => hQ).bind ?_
        rintro bytes _ ⟨rfl, hpaints⟩
        exact ends_deliverTo access a hw houtput
          (fun _ h => ⟨_, _, .png hpainter hpicture hpaints, h⟩) hQ

end Writing

section Outcome

variable {libraries : Libraries Option} {access : Access} {a : Arguments} {words : List String}
  {w : World}

/-- The world after a command that brought no result: nothing is printed, and at most the summary
has been written, for settings and a document that were accepted. -/
structure Spared (access : Access) (a : Arguments) (before after : World) : Prop where
  output : after.output = before.output
  disk : before.disk.SameBut after.disk
    { path | a.dump = some path ∧ ∃ s d, access.Accepts a before s d }

theorem spared_self (w : World) : Spared access a w w := ⟨rfl, .refl _ _⟩

theorem Summarized.spared {w' : World} (h : Summarized a w w') {s : Settings Float32}
    {d : Diagram Float32} (haccepts : access.Accepts a w s d) : Spared access a w w' :=
  ⟨h.output, h.disk.mono fun _ hdump => ⟨hdump, s, d, haccepts⟩⟩

/-- The world after a command that did well: it accepted settings and a document, found nothing
wrong with the arrangement if it was asked to check, and delivered what it arranged. -/
inductive Succeeds (libraries : Libraries Option) (access : Access) (a : Arguments)
    (before after : World) : Prop
  | intro {s : Settings Float32} {d : Diagram Float32} {arranged : Arrangement Float32}
    {content : Content} {ending : String}
    (accepts : access.Accepts a before s d)
    (arranges : d.arrangeBy libraries.dagre s.layout = some arranged)
    (checked : a.check = true → arranged.check s.layout d = [])
    (renders : Renders libraries s d arranged (a.format.getD .json) content ending)
    (delivered : Delivered a before content ending after)

def Hangs (libraries : Libraries Option) (access : Access) (a : Arguments) (w : World) : Prop :=
  ∃ s d, access.Accepts a w s d ∧ d.Stalls s.layout libraries.dagre

theorem ends_arrange {Q : World → Prop} {R : Prop} (s : LayoutSettings Float32)
    (d : Diagram Float32) (hR : d.Stalls s libraries.dagre → R) :
    Ends (ExceptT.lift (d.arrangeBy libraries.lift.dagre s)) w
      (fun arranged w' => w' = w ∧ d.arrangeBy libraries.dagre s = some arranged) Q R := by
  have hrun := run_arrangeBy libraries.dagre d s w
  cases harranged : d.arrangeBy libraries.dagre s with
  | none =>
    rw [harranged] at hrun
    exact .never hrun (hR ((Diagram.arrangeBy_eq_none s d _).mp harranged))
  | some arranged =>
    rw [harranged] at hrun
    exact .ok hrun ⟨rfl, rfl⟩

theorem ends_run (libraries : Libraries Option) (access : Access) (a : Arguments) (w : World) :
    Ends (run access.host libraries.lift a) w (fun _ => Succeeds libraries access a w)
      (Spared access a w) (Hangs libraries access a w) := by
  refine (ends_settings access a (spared_self w)).bind ?_
  rintro s _ ⟨rfl, hs⟩
  refine (ends_document access a (spared_self _)).bind ?_
  rintro d w ⟨rfl, hd⟩
  have haccepts : access.Accepts a w s d := ⟨hs, hd⟩
  refine (ends_arrange s.layout d fun hstalls => ⟨s, d, haccepts, hstalls⟩).bind ?_
  rintro arranged w ⟨rfl, harranged⟩
  refine (ends_summarize access a s.layout d arranged (spared_self w)).bind fun _ w' hw => ?_
  -- From here on a failure leaves the world as it is with the summary, for what has been accepted.
  have hspared : Spared access a w w' := hw.spared haccepts
  refine (ends_check access a s.layout d arranged fun _ =>
    ⟨hspared.output, hspared.disk⟩).bind ?_
  rintro _ _ ⟨rfl, hchecked⟩
  refine (ends_deliverArrangement access a libraries hw s d arranged hspared).mono ?_
  rintro _ w'' ⟨content, ending, hrenders, hdelivered⟩
  exact ⟨haccepts, harranged, hchecked, hrenders, hdelivered⟩

theorem Failure.status_ne_zero (e : Failure) : e.status ≠ 0 := by
  cases e <;> nofun

/-- A command that fails prints no result and changes no file but the summary, and that one only
after it has accepted the settings and the document. A command that does well has found nothing
wrong where it was to check, and has delivered the document to one place. There is no third way to
end, and a command does not come to an end only where a pass of dagre does not. -/
theorem execute_outcome (libraries : Libraries Option) (access : Access) (w : World)
    (words : List String) (a : Arguments) (hwords : Arguments.read words = .ok (.arrange a)) :
    (access.execute libraries words w = none → Hangs libraries access a w) ∧
      ∀ status w', access.execute libraries words w = some (status, w') →
        (status ≠ 0 → Spared access a w w') ∧
          (status = 0 → Succeeds libraries access a w w') := by
  rw [access.execute_arrange libraries hwords w]
  cases ends_run libraries access a w with
  | ok h hP =>
    rw [h]
    refine ⟨nofun, fun status w' hend => ?_⟩
    cases hend
    exact ⟨fun hstatus => absurd rfl hstatus, fun _ => hP⟩
  | error h hQ =>
    rw [h]
    refine ⟨nofun, fun status w' hend => ?_⟩
    cases hend
    exact ⟨fun _ => ⟨hQ.output, hQ.disk⟩, fun hstatus => absurd hstatus (Failure.status_ne_zero _)⟩
  | never h hR =>
    rw [h]
    exact ⟨fun _ => hR, nofun⟩

/-- A stand-in for a painter: it takes sizes above zero, and its images are the drawings. -/
def Painter.plain : Painter where
  Tree := String
  Canvas := String
  size? width height :=
    if 0 < width ∧ 0 < height then some ⟨width, height⟩ else none
  parse := fun _ svg => .ok svg
  canvas? := fun _ => some ""
  paint := fun tree _ => tree
  encode := fun canvas => .ok canvas.toUTF8

/-- A document that passes the check, then an image of it, and then the image at no width, after
the summary. -/
theorem execute_outcome_image :
    let w : World := .start "[\x7b\"id\":\"a\"\x7d]" ⟨[], [(["o"], .text "before"),
      (["c"], .text "\x7b\"layout\":\x7b\"engine\":\"dagre\"\x7d\x7d")]⟩
    let libraries : Libraries Option := ⟨.lone, some .plain⟩
    let drawing : Arguments :=
      { Arguments.none with
        check := true, config := some "c", output := some "o", format := some .png }
    let narrow : Arguments :=
      { Arguments.none with
        dump := some "d", width := some 0, output := some "o", format := some .png }
    let words := ["--check", "-c", "c", "-o", "o", "-e", "png"]
    let wordsNarrow := ["--dumpLayout", "d", "-w", "0", "-o", "o", "-e", "png"]
    ∃ done failed,
      (Access.full.execute libraries words w = some (0, done) ∧
        Succeeds libraries .full drawing w done) ∧
      Access.full.execute libraries wordsNarrow w = some (1, failed) ∧
        Spared .full narrow w failed := by
  intro w libraries drawing narrow words wordsNarrow
  have hdraws : (Access.full.execute libraries words w).map (·.1) = some 0 := by decide +kernel
  have hfails : (Access.full.execute libraries wordsNarrow w).map (·.1) = some 1 := by
    decide +kernel
  obtain ⟨⟨_, done⟩, hdone, rfl⟩ := Option.map_eq_some_iff.mp hdraws
  obtain ⟨⟨_, failed⟩, hfailed, rfl⟩ := Option.map_eq_some_iff.mp hfails
  obtain ⟨-, hdrawing⟩ := execute_outcome libraries .full w words drawing rfl
  obtain ⟨-, hnarrow⟩ := execute_outcome libraries .full w wordsNarrow narrow rfl
  exact ⟨done, failed, ⟨hdone, (hdrawing _ _ hdone).2 rfl⟩, hfailed,
    (hnarrow _ _ hfailed).1 (by decide)⟩

end Outcome

end FlowCanvas.Command
