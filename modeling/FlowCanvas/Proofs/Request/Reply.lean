import FlowCanvas.Proofs.Arrangement.Engine
import FlowCanvas.Proofs.Diagram.Proper
import FlowCanvas.Request

/-! Replies as requests. What a request is answered with is a document that can be sent again, if
its positions are finite: a coordinate that is not is written as null, and null is no coordinate. A
size that is not finite does no harm, because null is no size. -/

namespace FlowCanvas

namespace Number

def isFinite : Number → Bool
  | .integer _ => true
  | .single x => Binary.isFinite (Binary.ofSingle x)
  | .double x => Binary.isFinite (Binary.ofDouble x)

/-- What a finite float is written as has a value, though maybe another one. Of a whole number
nothing is asked. -/
def Readable : Number → Prop
  | .integer _ => True
  | m => m.isFinite = true → m.reread?.isSome = true

instance : DecidablePred Readable
  | .integer _ => inferInstanceAs (Decidable True)
  | .single x => inferInstanceAs (Decidable
      ((Number.single x).isFinite = true → (Number.single x).reread?.isSome = true))
  | .double x => inferInstanceAs (Decidable
      ((Number.double x).isFinite = true → (Number.double x).reread?.isSome = true))

theorem Readable.of_float {m : Number} (h : m.Readable) (hfloat : ∀ i, m ≠ .integer i) :
    m.isFinite = true → m.reread?.isSome = true := by
  cases m with
  | integer i => exact absurd rfl (hfloat i)
  | single x => exact h
  | double x => exact h

theorem write_of_not_isFinite {m : Number} (h : m.isFinite = false) :
    Json.writeNumber m = "null".toList := by
  have hstyle (s : NumberStyle) (hs : (∀ sign, s.infinite sign = "null") ∧ s.undefined = "null")
      (u : Float.Model.UnpackedFloat) (hu : Binary.isFinite u = false) :
      s.write u = "null".toList := by
    cases u with
    | finite sign m e hm => cases hu
    | zero sign => cases hu
    | infinity sign => exact congrArg String.toList (hs.1 sign)
    | notANumber => exact congrArg String.toList hs.2
  cases m with
  | integer i => cases h
  | single x => exact hstyle .single ⟨fun _ => rfl, rfl⟩ _ h
  | double x => exact hstyle .double ⟨fun _ => rfl, rfl⟩ _ h

theorem isPortable_of_reread? {m : Number} (h : m.reread? = some m) : m.isPortable = true := by
  cases m with
  | integer i =>
    obtain ⟨n, -, hn⟩ := exists_of_reread? h
    rcases n.strict?_cases hn with ⟨_, -, hportable⟩ | ⟨_, hx⟩
    · exact hportable
    · cases hx
  | single x =>
    obtain ⟨n, -, hn⟩ := exists_of_reread? h
    rcases n.strict?_cases hn with ⟨_, hx, -⟩ | ⟨_, hx⟩ <;> cases hx
  | double x =>
    cases hfinite : (Number.double x).isFinite with
    | true => exact hfinite
    | false =>
      rw [reread?, write_of_not_isFinite hfinite] at h
      cases h

end Number

theorem Point.legible_of_isFinite {p : Point Float32} (h : p.isFinite = true)
    (hreadable : ∀ m ∈ p.toJson.numbers, m.Readable) : p.Legible := by
  obtain ⟨hx, hy⟩ := Point.forall_numbers.mp hreadable
  obtain ⟨hfinitex, hfinitey⟩ := Bool.and_eq_true_iff.mp h
  constructor
  · rw [rereadSingle?, Option.isSome_map]
    exact hx hfinitex
  · rw [rereadSingle?, Option.isSome_map]
    exact hy hfinitey

namespace Diagram

variable {d : Diagram Float32}

/-- What a written diagram must be like to be read: no coordinate is infinite or undefined, not too
many containers are open at once, and what its finite floats are written as has a value. -/
structure Presentable (d : Diagram Float32) : Prop where
  finite : ∀ n ∈ d.nodes, n.position.isFinite = true
  shallow : d.toJson.depth ≤ depthLimit
  readable : ∀ m ∈ d.toJson.numbers, m.Readable

instance : DecidablePred Presentable := fun d =>
  decidable_of_iff ((∀ n ∈ d.nodes, n.position.isFinite = true) ∧
      d.toJson.depth ≤ depthLimit ∧ ∀ m ∈ d.toJson.numbers, m.Readable)
    ⟨fun h => ⟨h.1, h.2.1, h.2.2⟩, fun h => ⟨h.finite, h.shallow, h.readable⟩⟩

theorem Proper.read_presentable (hd : d.Proper) (h : d.Presentable) :
    read d.write = .ok d.reread := by
  apply read_write_reread hd h.shallow
  · refine legible_of_floats fun m hm hfloat => ?_
    cases hfinite : m.isFinite with
    | true => exact .inl ((h.readable m hm).of_float hfloat hfinite)
    | false => exact .inr (Number.write_of_not_isFinite hfinite)
  · intro n hn
    have hnode := Node.forall_numbers.mp ((forall_numbers.mp h.readable).1 n hn)
    exact Point.legible_of_isFinite (h.finite n hn) hnode.1

end Diagram

namespace Request

variable {input options : String} {d : Diagram Float32} {s : Settings Float32}

theorem given_of_value? (h : Json.Strict.value? options.toList ≠ none) :
    given (some options) = some options := by
  rw [given, Option.filter_some_eq_some, Bool.not_eq_true', ← Bool.not_eq_true]
  exact fun hblank => h (Json.Strict.value?_blank (List.all_eq_true.mp hblank))

theorem given_of_merge {t : Settings Float32} (h : s.merge options = .ok t) :
    given (some options) = some options := by
  refine given_of_value? fun hnone => ?_
  rw [Settings.merge, Patch.read?, hnone] at h
  cases h

theorem patched_of_merge (hmerge : Settings.standard.merge options = .ok s) :
    patched (some options) = .ok s := by
  rw [patched, given_of_merge hmerge]
  exact congrArg (Except.mapError RequestError.ofSettings) hmerge

theorem patchReply_of_read {m : Type → Type} [Monad m] (dagre : Dagre m Float32)
    (hread : Diagram.read input = .ok d) (hmerge : Settings.standard.merge options = .ok s) :
    patchReply dagre input (some options) =
      (fun a => .ok (Diagram.write ⟨a.nodes, d.edges⟩)) <$> d.arrangeBy dagre s.layout := by
  have harrange : arrange dagre s input =
      (fun a => .ok (Diagram.write ⟨a.nodes, d.edges⟩)) <$> d.arrangeBy dagre s.layout := by
    rw [arrange, hread]
  rw [patchReply, patched_of_merge hmerge]
  exact harrange

/-- Whatever is asked for, if the document can be read and the options too, there is a reply, unless
dagre is asked for and its pass never comes back. If what is replied is presentable, then it can be
read in its turn, with the same nodes in the same groups and the same edges between them. -/
theorem patchReply_reread (dagre : Dagre Option Float32) (hread : Diagram.read input = .ok d)
    (hmerge : Settings.standard.merge options = .ok s) :
    (patchReply dagre input (some options) = none ↔ d.Stalls s.layout dagre) ∧
      ∀ a, d.arrangeBy dagre s.layout = some a →
        ∃ out, patchReply dagre input (some options) = some (.ok out) ∧
          (Diagram.Presentable ⟨a.nodes, d.edges⟩ →
            ∃ d', Diagram.read out = .ok d' ∧ d'.outline = d.outline) := by
  rw [patchReply_of_read dagre hread hmerge]
  constructor
  · rw [Option.map_eq_map, Option.map_eq_none_iff, Diagram.arrangeBy_eq_none]
  · intro a ha
    rw [ha]
    refine ⟨_, rfl, fun h => ?_⟩
    obtain ⟨centers, -, hplan⟩ := Option.map_eq_some_iff.mp ha
    subst hplan
    refine ⟨_, ((Diagram.proper_of_read hread).arrangement _).read_presentable h, ?_⟩
    rw [Diagram.outline_reread, Diagram.outline_arrangement]

def isMisshapen (text : String) : Bool :=
  match Diagram.read text with
  | .error (.shape .strict) => true
  | _ => false

theorem read_of_isMisshapen {text : String} (h : isMisshapen text = true) :
    Diagram.read text = .error (.shape .strict) := by
  unfold isMisshapen at h
  split at h
  · assumption
  · cases h

theorem exists_of_check (input options : String) (check : Diagram Float32 → Settings Float32 → Bool)
    (h : (match Diagram.read input, Settings.standard.merge options with
      | .ok d, .ok s => check d s
      | _, _ => false) = true) :
    ∃ d s, Diagram.read input = .ok d ∧ Settings.standard.merge options = .ok s ∧
      check d s = true := by
  split at h
  · exact ⟨_, _, ‹_›, ‹_›, h⟩
  · cases h

theorem patchReply_reread_group :
    let input := "\x7b\"nodes\":[\x7b\"id\":\"g\",\"type\":\"group\"\x7d," ++
      "\x7b\"id\":\"a\",\"parentNode\":\"g\",\"data\":[0.5]\x7d]," ++
      "\"edges\":[\x7b\"source\":\"a\",\"target\":\"g\"\x7d]\x7d"
    let options := "\x7b\"layout\":\x7b\"gridSize\":10,\"engine\":\"dagre\"\x7d\x7d"
    ∃ d s a out d', Diagram.read input = .ok d ∧ Settings.standard.merge options = .ok s ∧
      s.layout.engine = .dagre ∧ d.arrangeBy .lone s.layout = some a ∧
      Diagram.Presentable ⟨a.nodes, d.edges⟩ ∧
      patchReply .lone input (some options) = some (.ok out) ∧
      Diagram.read out = .ok d' ∧ d'.outline = d.outline := by
  intro input options
  obtain ⟨d, s, hread, hmerge, hcheck⟩ := exists_of_check input options
    (fun d s => s.layout.engine = .dagre &&
      (d.arrangeBy .lone s.layout).any fun a => decide (Diagram.Presentable ⟨a.nodes, d.edges⟩))
    (by decide +kernel)
  obtain ⟨hengine, hany⟩ := Bool.and_eq_true_iff.mp hcheck
  obtain ⟨a, ha, hpresentable⟩ := (Option.any_eq_true _ _).mp hany
  obtain ⟨-, hreply⟩ := patchReply_reread .lone hread hmerge
  obtain ⟨out, hout, hagain⟩ := hreply a ha
  obtain ⟨d', hd', houtline⟩ := hagain (of_decide_eq_true hpresentable)
  exact ⟨d, s, a, out, d', hread, hmerge, of_decide_eq_true hengine, ha,
    of_decide_eq_true hpresentable, hout, hd', houtline⟩

/-- Half the width and the margin are singles, but their sum is too great for one. So the step is at
no number, and the reply cannot be read. -/
theorem patchReply_infinite :
    let input := "[\x7b\"id\":\"a\"\x7d]"
    let options := "\x7b\"layout\":\x7b\"margin\":3e38,\"stepWidth\":3e38\x7d\x7d"
    ∃ d s out, Diagram.read input = .ok d ∧ Settings.standard.merge options = .ok s ∧
      (∀ dagre : Dagre Option Float32,
        patchReply dagre input (some options) = some (.ok out)) ∧
      Diagram.read out = .error (.shape .strict) := by
  intro input options
  obtain ⟨d, s, hread, hmerge, hcheck⟩ := exists_of_check input options
    (fun d s => s.layout.engine = .layered && isMisshapen (d.arranged s.layout).write)
    (by decide +kernel)
  obtain ⟨hengine, hmisshapen⟩ := Bool.and_eq_true_iff.mp hcheck
  refine ⟨d, s, _, hread, hmerge, fun dagre => ?_, read_of_isMisshapen hmisshapen⟩
  rw [patchReply_of_read dagre hread hmerge,
    Diagram.arrangeBy_layered dagre d (of_decide_eq_true hengine)]
  rfl

end Request

end FlowCanvas
