import FlowCanvas.Command.World

/-! Runs on a world of files. The parts of a run come to a result each and leave a world behind, the
first failure ends the run where it stands, and nothing comes of a run in which a pass of dagre
never comes back. A command that is asked for no more than to arrange one file by the settings in
another leaves the disk alone, and prints only if all goes well. -/

namespace FlowCanvas.Command

section Binds

variable {β γ : Type} {w w' : World} {x : ExceptT Failure (StateT World Option) β}

theorem run_bind_ok {b : β} (h : x.run w = some (.ok b, w'))
    (f : β → ExceptT Failure (StateT World Option) γ) : (x >>= f).run w = (f b).run w' := by
  rw [ExceptT.run_bind]
  change StateT.bind x.run _ w = _
  rw [StateT.bind, h]
  rfl

theorem run_bind_error {e : Failure} (h : x.run w = some (.error e, w'))
    (f : β → ExceptT Failure (StateT World Option) γ) :
    (x >>= f).run w = some (.error e, w') := by
  rw [ExceptT.run_bind]
  change StateT.bind x.run _ w = _
  rw [StateT.bind, h]
  rfl

theorem run_bind_none (h : x.run w = none) (f : β → ExceptT Failure (StateT World Option) γ) :
    (x >>= f).run w = none := by
  rw [ExceptT.run_bind]
  change StateT.bind x.run _ w = _
  rw [StateT.bind, h]
  rfl

end Binds

section Engine

variable {β γ : Type} {w : World}

theorem map_apply {x : StateT World Option β} {y : Option β} (h : x w = y.map fun b => (b, w))
    (f : β → γ) : (f <$> x) w = (f <$> y).map fun c => (c, w) := by
  change StateT.map f x w = _
  rw [StateT.map, h]
  cases y <;> rfl

variable (dagre : Dagre Option Float32) (d : Diagram Float32) (s : LayoutSettings Float32)
  (w : World)

theorem centersBy_lift (f : Frames Float32) (size : Node Float32 → Size Float32) :
    f.centersBy s d.edges size (dagre.lift : Dagre (StateT World Option) Float32) w =
      (f.centersBy s d.edges size dagre).map fun centers => (centers, w) := by
  have hpass (graph : Dagre.Graph Float32) :
      (dagre.lift : Dagre (StateT World Option) Float32) graph w =
        (dagre graph).map fun pointOf => (pointOf, w) := by
    change StateT.lift (dagre graph) w = _
    rw [StateT.lift]
    cases dagre graph <;> rfl
  unfold Frames.centersBy
  cases s.engine with
  | layered => rfl
  | dagre =>
    cases f.layered.isEmpty with
    | true => rfl
    | false => exact map_apply (hpass _) _

theorem arrangeBy_lift :
    d.arrangeBy (dagre.lift : Dagre (StateT World Option) Float32) s w =
      (d.arrangeBy dagre s).map fun arranged => (arranged, w) :=
  map_apply (centersBy_lift dagre d s w _ _) _

theorem run_arrangeBy :
    (ExceptT.lift (d.arrangeBy dagre.lift s) : ExceptT Failure (StateT World Option) _).run w =
      (d.arrangeBy dagre s).map fun arranged => (.ok arranged, w) := by
  refine (map_apply (arrangeBy_lift dagre d s w) Except.ok).trans ?_
  rw [Option.map_eq_map, Option.map_map]
  rfl

end Engine

@[simp] theorem Libraries.lift_painter? (libraries : Libraries Option) :
    (libraries.lift : Libraries (StateT World Option)).painter? = libraries.painter? := rfl

def conclude : Except Failure Unit × World → Nat × World
  | (.ok (), w) => (0, w)
  | (.error e, w) => (e.status, { w with complaints := w.complaints ++ [e.report] })

/-- What a command may read and write: the texts of its input and of the files under paths, or why
there are none, and why a path is not written to, if it is not. -/
structure Access where
  input : World → Except String String
  read : String → World → Except String String
  denied? : String → World → Option String

namespace Access

def host (access : Access) : Host (StateT World Option) where
  input := fun w => pure (access.input w, w)
  read := fun path w => pure (access.read path w, w)
  write := fun path content w => pure <|
    match access.denied? path w with
    | some reason => (.error reason, w)
    | none => w.write path content
  print := fun text w => pure (w.print text)
  complain := fun line w => pure (w.complain line)

def full : Access where
  input := fun w => .ok w.input
  read := fun path w => (w.disk.read path).mapError DiskError.message
  denied? := fun _ _ => none

variable (access : Access) (libraries : Libraries Option)

def execute (words : List String) (w : World) : Option (Nat × World) :=
  Command.execute access.host libraries.lift words w

theorem execute_arrange {words : List String} {a : Arguments}
    (hwords : Arguments.read words = .ok (.arrange a)) (w : World) :
    access.execute libraries words w =
      ((run access.host libraries.lift a).run w).map conclude := by
  rw [execute, Command.execute, hwords]
  change StateT.bind (run access.host libraries.lift a).run _ w = _
  rw [StateT.bind]
  cases (run access.host libraries.lift a).run w with
  | none => rfl
  | some result =>
    obtain ⟨_ | _, _⟩ := result <;> rfl

end Access

namespace World

variable {w : World} {a : Arguments} {path text : String}

theorem executeWith_arrange (libraries : Libraries Option) {words : List String}
    (hwords : Arguments.read words = .ok (.arrange a)) (w : World) :
    w.executeWith libraries words =
      ((run (m := StateT World Option) host libraries.lift a).run w).map conclude :=
  Access.full.execute_arrange libraries hwords w

theorem run_read (h : w.disk.read path = .ok text) :
    (ask (host.read path) : ExceptT Failure (StateT World Option) _).run w =
      some (.ok text, w) := by
  change some (((w.disk.read path).mapError DiskError.message).mapError Failure.host, w) = _
  rw [h]
  rfl

theorem run_configured (hconfig : a.config = some path) (h : w.disk.read path = .ok text) :
    (configured (m := StateT World Option) host a).run w =
      some ((Settings.standard.merge text).mapError Failure.settings, w) := by
  rw [configured, hconfig]
  exact run_bind_ok (run_read h) _

theorem run_document (hinput : a.input = some path) (hfile : Path.isInput path = false)
    (h : w.disk.read path = .ok text) :
    (document (m := StateT World Option) host a).run w =
      some ((Diagram.read text).mapError Failure.document, w) := by
  have htext : (documentText (m := StateT World Option) host a).run w = some (.ok text, w) := by
    rw [documentText, hinput]
    simp only [hfile, Bool.false_eq_true, if_false]
    exact run_read h
  exact run_bind_ok htext _

def arguments (input config : String) : Arguments :=
  { Arguments.none with input := some input, config := some config }

variable {input config : String}

theorem run_settings {s : Settings Float32} (h : w.disk.read config = .ok text)
    (hmerge : Settings.standard.merge text = .ok s) :
    (settings (m := StateT World Option) host (arguments input config)).run w =
      some (.ok s, w) := by
  have hconfigured : (configured (m := StateT World Option) host (arguments input config)).run w =
      some (.ok s, w) := by
    rw [run_configured rfl h, hmerge]
    rfl
  exact run_bind_ok hconfigured _

theorem run_unsettled (libraries : Libraries Option) {e : SettingsError}
    (h : w.disk.read config = .ok text) (hmerge : Settings.standard.merge text = .error e) :
    (run (m := StateT World Option) host libraries.lift (arguments input config)).run w =
      some (.error (.settings e), w) := by
  have hconfigured : (configured (m := StateT World Option) host (arguments input config)).run w =
      some (.error (.settings e), w) := by
    rw [run_configured rfl h, hmerge]
    rfl
  exact run_bind_error (run_bind_error hconfigured _) _

section Documents

variable {s : Settings Float32} {patch document : String} (libraries : Libraries Option)
  (hfile : Path.isInput input = false) (hconfig : w.disk.read config = .ok patch)
  (hmerge : Settings.standard.merge patch = .ok s) (hinput : w.disk.read input = .ok document)

include hfile hconfig hmerge hinput

theorem run_arranges {d : Diagram Float32} (hread : Diagram.read document = .ok d) :
    (run (m := StateT World Option) host libraries.lift (arguments input config)).run w =
      (d.arrangeBy libraries.dagre s.layout).map fun arranged => (.ok (), { w with
        output := w.output ++
          ((Diagram.toJson ⟨arranged.nodes, d.edges⟩).pretty ++ "\n") }) := by
  have hdocument : (Command.document (m := StateT World Option) host
      (arguments input config)).run w = some (.ok d, w) := by
    rw [run_document rfl hfile hinput, hread]
    rfl
  have harrange := run_arrangeBy libraries.dagre d s.layout w
  rw [run, run_bind_ok (run_settings hconfig hmerge), run_bind_ok hdocument]
  cases harranged : d.arrangeBy libraries.dagre s.layout with
  | none =>
    rw [harranged] at harrange
    exact run_bind_none harrange _
  | some arranged =>
    rw [harranged] at harrange
    exact run_bind_ok harrange _

theorem run_undocumented {e : ReadError} (hread : Diagram.read document = .error e) :
    (run (m := StateT World Option) host libraries.lift (arguments input config)).run w =
      some (.error (.document e), w) := by
  have hdocument : (Command.document (m := StateT World Option) host
      (arguments input config)).run w = some (.error (.document e), w) := by
    rw [run_document rfl hfile hinput, hread]
    rfl
  rw [run, run_bind_ok (run_settings hconfig hmerge)]
  exact run_bind_error hdocument _

end Documents

end World

end FlowCanvas.Command
