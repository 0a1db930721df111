import FlowCanvas.Proofs.Diagram.Element
import FlowCanvas.Proofs.Diagram.Written

/-! Diagrams read back. A field that is left out is at the value that the reader puts for it, and a
kind is read back from its name unless the name is that of another kind. So a written node is read
as the same node but for its numbers, and so is an edge and the whole diagram. -/

namespace FlowCanvas

open Json (Legible rereadFields)

def rereadSingle? (x : Float32) : Option Float32 := (Number.single x).reread?.map Number.toSingle

theorem ofSingle_reread {x y : Float32} (h : rereadSingle? x = some y) :
    ∃ k, (ofSingle x).reread = .number k ∧ k.toSingle = y := by
  obtain ⟨k, hk, hy⟩ := Option.map_eq_some_iff.mp h
  refine ⟨k, ?_, hy⟩
  rw [ofSingle, Json.reread, hk]
  rfl

namespace Point

def Legible (p : Point Float32) : Prop :=
  (rereadSingle? p.x).isSome = true ∧ (rereadSingle? p.y).isSome = true

def reread (p : Point Float32) : Point Float32 :=
  ⟨(rereadSingle? p.x).getD p.x, (rereadSingle? p.y).getD p.y⟩

theorem ofJson?_reread {p : Point Float32} (h : p.Legible) :
    ofJson? p.toJson.reread = some p.reread := by
  obtain ⟨hxs, hys⟩ := h
  obtain ⟨x, hx⟩ := Option.isSome_iff_exists.mp hxs
  obtain ⟨y, hy⟩ := Option.isSome_iff_exists.mp hys
  obtain ⟨k, hk, rfl⟩ := ofSingle_reread hx
  obtain ⟨l, hl, rfl⟩ := ofSingle_reread hy
  have hjson : p.toJson.reread = .object [("x", .number k), ("y", .number l)] := by
    rw [toJson, Json.reread, rereadFields, rereadFields, rereadFields, hk, hl]
  rw [hjson, ofJson?, reread, hx, hy]
  rfl

end Point

namespace Dimension

def reread? : Dimension Float32 → Option (Dimension Float32)
  | .number x => (rereadSingle? x).map .number
  | .text s => some (.text s)

theorem ofJson?_reread (w : Dimension Float32) :
    nullable ofJson? w.toJson.reread = some w.reread? := by
  cases w with
  | text s => rfl
  | number x =>
    cases hx : rereadSingle? x with
    | some y =>
      obtain ⟨k, hk, rfl⟩ := ofSingle_reread hx
      rw [toJson, hk, reread?, hx]
      rfl
    | none =>
      have hlost : (Number.single x).reread? = none := Option.map_eq_none_iff.mp hx
      rw [toJson, ofSingle, Json.reread, hlost, reread?, hx]
      rfl

end Dimension

def Extras.reread (e : Extras) : Extras := Extras.ofFields (rereadFields e.fields)

def Payload.reread (p : Payload) : Payload := Payload.ofJson p.json.reread

namespace Style

variable (s : Style Float32)

def reread : Style Float32 :=
  ⟨s.width.bind Dimension.reread?, s.height.bind Dimension.reread?, s.extra.reread⟩

theorem reread_of_isEmpty (h : s.isEmpty = true) : s.reread = plain := by
  rw [eq_plain_of_isEmpty h]
  rfl

variable {s}

theorem ofJson?_reread (hpassed : Passed keys s.extra.fields) :
    ofJson? s.toJson.reread = some s.reread := by
  obtain ⟨hfields, hlookup, hunknown⟩ := hpassed.record (by decide) s.head_keys
  have hread (key : String) (o : Option (Dimension Float32)) (hkey : key ∈ keys)
      (ho : s.head.lookup key = o.map Dimension.toJson) :
      optional (rereadFields (s.head ++ s.extra.fields)) key none (nullable Dimension.ofJson?) =
        some (o.bind Dimension.reread?) := by
    have hwritten : (rereadFields (s.head ++ s.extra.fields)).lookup key =
        o.map fun w => w.toJson.reread := by
      rw [hlookup key hkey, ho, Option.map_map]
      rfl
    rw [optional_written Dimension.reread? hwritten fun w _ => w.ofJson?_reread]
    cases o <;> rfl
  rw [toJson_eq, ofJson?, hfields, Option.bind_some,
    hread "width" s.width (by decide) s.head_width, Option.bind_some,
    hread "height" s.height (by decide) s.head_height, Option.map_some, hunknown]
  rfl

end Style

def NodeKind.reserved : List String := ["step", "tool", "group"]

def EdgeKind.reserved : List String := ["route", "tool"]

theorem NodeKind.ofName_name {kind : NodeKind} (h : ∀ name, kind = .other name → name ∉ reserved) :
    ofName kind.name = kind := by
  cases kind with
  | step => rfl
  | tool => rfl
  | group => rfl
  | other name =>
    have hname := h name rfl
    simp only [reserved, List.mem_cons, List.not_mem_nil, or_false, not_or] at hname
    obtain ⟨hstep, htool, hgroup⟩ := hname
    rw [NodeKind.name, ofName] <;> assumption

theorem EdgeKind.ofName_name {kind : EdgeKind} (h : ∀ name, kind = .other name → name ∉ reserved) :
    ofName kind.name = kind := by
  cases kind with
  | route => rfl
  | tool => rfl
  | other name =>
    have hname := h name rfl
    simp only [reserved, List.mem_cons, List.not_mem_nil, or_false, not_or] at hname
    obtain ⟨hroute, htool⟩ := hname
    rw [EdgeKind.name, ofName] <;> assumption

namespace Node

variable (n : Node Float32)

def reread : Node Float32 :=
  { n with
    position := n.position.reread
    style := n.style.reread
    data := n.data.reread
    extra := n.extra.reread }

/-- What holds of a node that was read: its kind is known by its name, and nothing that was passed
along has the key of a known field. -/
structure Proper : Prop where
  kind : ∀ name, n.kind = .other name → name ∉ NodeKind.reserved
  style : Passed Style.keys n.style.extra.fields
  extra : Passed keys n.extra.fields

variable {n}

theorem parentOf?_written {fs : List (String × Json)}
    (hparent : fs.lookup "parentId" = n.parent.map Json.text)
    (hother : fs.lookup "parentNode" = none) : parentOf? fs = some n.parent := by
  rw [parentOf?, hparent, hother]
  cases n.parent <;> rfl

theorem ofJson?_reread (hn : n.Proper) (h : n.position.Legible) :
    ofJson? n.toJson.reread = some n.reread := by
  obtain ⟨hfields, hlookup, hunknown⟩ := hn.extra.record (by decide) n.head_keys
  have hwritten : ∀ key ∈ keys, (rereadFields (n.head ++ n.extra.fields)).lookup key =
      (n.field? key).map Json.reread := by
    intro key hkey
    rw [hlookup key hkey, n.head_lookup key hkey]
  generalize rereadFields (n.head ++ n.extra.fields) = fs at hfields hunknown hwritten
  have hid : required fs "id" Json.text? = some n.id := by
    rw [required, hwritten "id" (by decide)]
    rfl
  have hkind : optional fs "type" .step (fun j => j.text?.map NodeKind.ofName) = some n.kind := by
    have hname := NodeKind.ofName_name hn.kind
    rw [optional, hwritten "type" (by decide)]
    exact congrArg some hname
  have hparent : parentOf? fs = some n.parent := by
    refine parentOf?_written ?_ (hwritten "parentNode" (by decide))
    rw [hwritten "parentId" (by decide), field?, Option.map_map]
    rfl
  have hposition : optional fs "position" Point.origin Point.ofJson? = some n.position.reread := by
    rw [optional, hwritten "position" (by decide)]
    exact Point.ofJson?_reread h
  have hstyle : optional fs "style" Style.plain Style.ofJson? = some n.style.reread := by
    have hlookup : fs.lookup "style" = (Option.guard (!·.isEmpty) n.style).map fun s =>
        s.toJson.reread := by
      rw [hwritten "style" (by decide), field?, Option.map_map]
      rfl
    rw [optional_written Style.reread hlookup]
    · rw [Option.guard]
      cases hempty : n.style.isEmpty with
      | true => exact congrArg some (n.style.reread_of_isEmpty hempty).symm
      | false => rfl
    · intro s hs
      have hsame : n.style = s := (Option.guard_eq_some_iff.mp hs).1
      subst hsame
      exact Style.ofJson?_reread hn.style
  have hdata : Payload.ofJson ((fs.lookup "data").getD .null) = n.data.reread := by
    rw [hwritten "data" (by decide), field?, Option.guard]
    cases hnull : n.data.isNull with
    | true => rw [Payload.eq_null_of_isNull hnull]; rfl
    | false => rfl
  rw [toJson_eq, ofJson?, hfields, Option.bind_some, hid]
  simp only [Option.bind_some, Option.map_some, hkind, hparent, hposition, hstyle, hdata, hunknown]
  rfl

end Node

namespace Edge

variable (e : Edge)

def reread : Edge := { e with extra := e.extra.reread }

structure Proper : Prop where
  kind : ∀ name, e.kind = .other name → name ∉ EdgeKind.reserved
  extra : Passed keys e.extra.fields

variable {e}

theorem ofJson?_reread (he : e.Proper) : ofJson? e.toJson.reread = some e.reread := by
  have hkeys : (e.head.map (·.1)).Sublist keys := List.Sublist.refl keys
  obtain ⟨hfields, hlookup, hunknown⟩ := he.extra.record (by decide) hkeys
  have hname := EdgeKind.ofName_name he.kind
  rw [toJson_eq, ofJson?, hfields]
  simp only [Option.bind_some, required, optional, hunknown, hlookup "id" (by decide),
    hlookup "source" (by decide), hlookup "target" (by decide), hlookup "type" (by decide)]
  exact congrArg (fun kind => some { e with kind, extra := e.extra.reread }) hname

end Edge

namespace Diagram

variable (d : Diagram Float32)

def reread : Diagram Float32 := ⟨d.nodes.map Node.reread, d.edges.map Edge.reread⟩

structure Proper : Prop where
  ids : (d.nodes.map (·.id)).Nodup
  nodes : ∀ n ∈ d.nodes, n.Proper
  edges : ∀ e ∈ d.edges, e.Proper

variable {d}

theorem mapM_written {β γ : Type} {read : Json → Option γ} {write : β → Json} {value : β → γ}
    {xs : List β} (h : ∀ x ∈ xs, read (write x).reread = some (value x)) :
    (Json.rereadItems (xs.map write)).mapM read = some (xs.map value) := by
  induction xs with
  | nil => rfl
  | cons x xs ih =>
    obtain ⟨hx, hxs⟩ := List.forall_mem_cons.mp h
    rw [List.map_cons, Json.rereadItems, List.mapM_cons, hx, ih hxs]
    rfl

theorem ofJson?_reread (hd : d.Proper) (h : ∀ n ∈ d.nodes, n.position.Legible) :
    ofJson? d.toJson.reread = some d.reread := by
  have hnodes : nodesOf? (nodesToJson d.nodes).reread = some d.reread.nodes := by
    exact mapM_written fun n hn => Node.ofJson?_reread (hd.nodes n hn) (h n hn)
  have hedges : edgesOf? (Json.array (d.edges.map Edge.toJson)).reread = some d.reread.edges :=
    mapM_written fun e he => Edge.ofJson?_reread (hd.edges e he)
  have hlists : listsOf? d.toJson.reread = some d.reread := by
    have hboth : optional (rereadFields [("nodes", nodesToJson d.nodes),
          ("edges", .array (d.edges.map Edge.toJson))]) "nodes" [] nodesOf? = some d.reread.nodes ∧
        optional (rereadFields [("nodes", nodesToJson d.nodes),
          ("edges", .array (d.edges.map Edge.toJson))]) "edges" [] edgesOf? =
            some d.reread.edges := ⟨hnodes, hedges⟩
    have hfields : Json.fields? ["nodes", "edges"] d.toJson.reread = some (rereadFields
        [("nodes", nodesToJson d.nodes), ("edges", .array (d.edges.map Edge.toJson))]) := rfl
    rw [listsOf?, hfields, Option.bind_some, hboth.1, Option.bind_some, hboth.2]
    · rfl
    all_goals nofun
  rw [ofJson?, hlists, Option.some_or]

theorem trim_write (d : Diagram Float32) :
    Blank.trim d.write.toList = d.toJson.compact ∧ d.toJson.compact ≠ [] := by
  obtain ⟨ts, hts⟩ := Json.fieldTokens_closed
    [("nodes", nodesToJson d.nodes), ("edges", .array (d.edges.map Edge.toJson))]
  have hcompact : d.toJson.compact = '\x7b' :: (ts.flatMap Json.Token.write ++ ['\x7d']) := by
    rw [Json.compact, toJson, Json.tokens, hts, List.flatMap_cons, List.flatMap_append,
      List.flatMap_singleton]
    rfl
  have hopen : Blank.isBlank '\x7b' = false := by decide
  have hclose : Blank.isBlank '\x7d' = false := by decide
  rw [write, Json.write, String.toList_ofList, hcompact]
  constructor
  · rw [Blank.trim, List.dropWhile_cons, hopen, if_neg Bool.false_ne_true, Blank.trimEnd,
      ← List.cons_append, List.reverse_concat, List.dropWhile_cons, hclose,
      if_neg Bool.false_ne_true, ← List.reverse_concat, List.reverse_reverse]
  · exact List.cons_ne_nil _ _

theorem legible_of_floats (h : ∀ m ∈ d.toJson.numbers, (∀ i, m ≠ .integer i) →
    m.reread?.isSome = true ∨ Json.writeNumber m = "null".toList) : Legible d.toJson.numbers := by
  intro m hm
  by_cases hwhole : ∃ i, m = .integer i
  · obtain ⟨i, rfl⟩ := hwhole
    exact .inl (by rw [Number.reread?_integer (d.integer_isPortable _ hm i rfl)]; rfl)
  · exact h m hm (not_exists.mp hwhole)

theorem read_write_reread (hd : d.Proper) (hdepth : d.toJson.depth ≤ depthLimit)
    (hnumbers : Legible d.toJson.numbers) (hpositions : ∀ n ∈ d.nodes, n.position.Legible) :
    read d.write = .ok d.reread := by
  obtain ⟨htrim, hnonempty⟩ := trim_write d
  have hadmitted : isAdmitted d.toJson.reread = true := by
    rw [isAdmitted, Json.isReadable_reread, Json.depth_reread, decide_eq_true hdepth]
    rfl
  have hstrict : strictDocument d.toJson.compact = .ok d.reread := by
    rw [strictDocument, Json.Strict.value?_compact hnumbers]
    simp only [hadmitted, ofJson?_reread hd hpositions, if_true, List.isEmpty_nil]
  have hdocument : document d.toJson.compact = .ok d.reread := by rw [document, hstrict]
  have hids : (d.reread.nodes.map (·.id)).Nodup := by
    have hsame : d.reread.nodes.map (·.id) = d.nodes.map (·.id) := by
      rw [reread, List.map_map]
      rfl
    rw [hsame]
    exact hd.ids
  have hrepeated : d.reread.repeated? = none := by
    rw [repeated?, marked_of_nodup hids, Option.map_eq_none_iff, List.find?_eq_none]
    simp
  rw [read, htrim]
  split
  · exact absurd ‹_› hnonempty
  · simp only [hdocument, hrepeated]

end Diagram

end FlowCanvas
