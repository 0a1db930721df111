import FlowCanvas.Proofs.Diagram.Reread

/-! Writing and reading. Whole numbers are read back as they were written. If that is so of the
floats of a diagram as well, then nothing of the diagram is lost. -/

namespace FlowCanvas

open Json (Legible rereadFields fieldNumbers itemNumbers)

deriving instance DecidableEq for Number

/-- A float is read back from what it is written as. Of a whole number nothing is asked. -/
def Number.Recovers : Number → Prop
  | .integer _ => True
  | .single x => (Number.single x).reread?.map toSingle = some x
  | .double x => (Number.double x).reread? = some (.double x)

instance : DecidablePred Number.Recovers
  | .integer _ => inferInstanceAs (Decidable True)
  | .single x => inferInstanceAs (Decidable ((Number.single x).reread?.map Number.toSingle = some x))
  | .double x => inferInstanceAs (Decidable ((Number.double x).reread? = some (.double x)))

namespace Json

theorem reread?_of_recovers {m : Number} (hm : m.isPortable = true) (h : m.Recovers) :
    m.reread? = some m := by
  cases m with
  | integer i => exact Number.reread?_integer hm
  | single x => cases hm
  | double x => exact h

mutual

theorem reread_of_recovers : ∀ {j : Json}, j.isCanonical = true →
    (∀ m ∈ j.numbers, m.Recovers) → j.reread = j
  | .null, _, _ => rfl
  | .bool _, _, _ => rfl
  | .number n, hj, h => by
    rw [reread, reread?_of_recovers hj (h n List.mem_cons_self)]
    rfl
  | .text _, _, _ => rfl
  | .array _, hj, h => congrArg Json.array (rereadItems_of_recovers hj h)
  | .object _, hj, h => congrArg Json.object (rereadFields_of_recovers hj h)

theorem rereadItems_of_recovers : ∀ {js : List Json}, itemsCanonical js = true →
    (∀ m ∈ itemNumbers js, m.Recovers) → rereadItems js = js
  | [], _, _ => rfl
  | j :: js, hjs, h => by
    rw [itemsCanonical, Bool.and_eq_true] at hjs
    rw [itemNumbers, List.forall_mem_append] at h
    rw [rereadItems, reread_of_recovers hjs.1 h.1, rereadItems_of_recovers hjs.2 h.2]

theorem rereadFields_of_recovers : ∀ {fs : List (String × Json)}, fieldsCanonical fs = true →
    (∀ m ∈ fieldNumbers fs, m.Recovers) → rereadFields fs = fs
  | [], _, _ => rfl
  | (k, j) :: fs, hfs, h => by
    rw [fieldsCanonical, Bool.and_eq_true, Bool.and_eq_true] at hfs
    rw [fieldNumbers, List.forall_mem_append] at h
    rw [rereadFields, reread_of_recovers hfs.1.1 h.1, rereadFields_of_recovers hfs.2 h.2]

end

end Json

theorem Point.legible_of_recovers {p : Point Float32} (h : ∀ m ∈ p.toJson.numbers, m.Recovers) :
    p.Legible ∧ p.reread = p := by
  obtain ⟨hx, hy⟩ : rereadSingle? p.x = some p.x ∧ rereadSingle? p.y = some p.y :=
    Point.forall_numbers.mp h
  rw [Legible, reread, hx, hy]
  exact ⟨⟨rfl, rfl⟩, rfl⟩

theorem Extras.reread_of_recovers {e : Extras} (h : ∀ m ∈ fieldNumbers e.fields, m.Recovers) :
    e.reread = e := by
  rw [reread, Json.rereadFields_of_recovers e.canonical h, ofFields_fields]

theorem Dimension.reread_of_recovers {w : Dimension Float32}
    (h : ∀ m ∈ w.toJson.numbers, m.Recovers) : w.reread? = some w := by
  cases w with
  | text s => rfl
  | number x =>
    have hx : rereadSingle? x = some x := forall_ofSingle.mp h
    rw [reread?, hx, Option.map_some]

theorem Style.reread_of_recovers {s : Style Float32} (h : ∀ m ∈ s.toJson.numbers, m.Recovers) :
    s.reread = s := by
  obtain ⟨hwidths, hheights, hextra⟩ := forall_numbers.mp h
  have hsame (o : Option (Dimension Float32))
      (ho : ∀ w, o = some w → ∀ m ∈ w.toJson.numbers, m.Recovers) :
      o.bind Dimension.reread? = o := by
    cases o with
    | none => rfl
    | some w => exact Dimension.reread_of_recovers (ho w rfl)
  rw [reread, hsame s.width hwidths, hsame s.height hheights, Extras.reread_of_recovers hextra]

theorem Node.reread_of_recovers {n : Node Float32} (h : ∀ m ∈ n.toJson.numbers, m.Recovers) :
    n.reread = n := by
  obtain ⟨hposition, hstyle, hdata, hextra⟩ := forall_numbers.mp h
  have hpayload : n.data.reread = n.data := by
    rw [Payload.reread, Json.reread_of_recovers n.data.canonical hdata, Payload.ofJson_json]
  rw [reread, (Point.legible_of_recovers hposition).2, Style.reread_of_recovers hstyle, hpayload,
    Extras.reread_of_recovers hextra]

theorem Edge.reread_of_recovers {e : Edge} (h : ∀ m ∈ e.toJson.numbers, m.Recovers) :
    e.reread = e := by
  rw [reread, Extras.reread_of_recovers (e.forall_numbers.mp h)]

namespace Diagram

variable {d : Diagram Float32}

theorem reread_of_recovers (h : ∀ m ∈ d.toJson.numbers, m.Recovers) : d.reread = d := by
  obtain ⟨hnodes, hedges⟩ := forall_numbers.mp h
  have hsameNodes : d.nodes.map Node.reread = d.nodes :=
    (List.map_congr_left fun n hn => Node.reread_of_recovers (hnodes n hn)).trans (List.map_id _)
  have hsameEdges : d.edges.map Edge.reread = d.edges :=
    (List.map_congr_left fun e he => Edge.reread_of_recovers (hedges e he)).trans (List.map_id _)
  rw [reread, hsameNodes, hsameEdges]

/-- Nothing is lost of a diagram that is written and read again, provided that its floats are not. -/
theorem read_write (hd : d.Proper) (hdepth : d.toJson.depth ≤ depthLimit)
    (hnumbers : ∀ m ∈ d.toJson.numbers, m.Recovers) : read d.write = .ok d := by
  have hlegible : Legible d.toJson.numbers := by
    refine legible_of_floats fun m hm hfloat => .inl ?_
    have hrecovers := hnumbers m hm
    cases m with
    | integer i => exact absurd rfl (hfloat i)
    | single x =>
      have hx : rereadSingle? x = some x := hrecovers
      exact Option.isSome_map.symm.trans (congrArg Option.isSome hx)
    | double x =>
      have hx : (Number.double x).reread? = some (.double x) := hrecovers
      exact congrArg Option.isSome hx
  have hpositions : ∀ n ∈ d.nodes, n.position.Legible := by
    intro n hn
    have hnode := Node.forall_numbers.mp ((forall_numbers.mp hnumbers).1 n hn)
    exact (Point.legible_of_recovers hnode.1).1
  rw [read_write_reread hd hdepth hlegible hpositions, reread_of_recovers hnumbers]

theorem read_write_rich :
    let data : Json := .object [("é", .array [.number (.double 0.1), .null, .array []]),
      ("n", .object [("max", .number (.integer 18446744073709551615)),
        ("min", .number (.integer (-9223372036854775808)))])]
    let style : Style Float32 := ⟨some (.number 33.3), some (.text "320px"),
      .ofFields [("z", .bool false)]⟩
    let a : Node Float32 := ⟨"q\"\\\n\x01😀", .other "note", some "g", ⟨-0.0, 1e-7⟩, style,
      .ofJson data, .ofFields [("selected", .bool true)]⟩
    let d : Diagram Float32 := ⟨[a, Node.new "g" .group],
      [⟨"", a.id, "g", .other "link", .ofFields [("animated", .text "\t")]⟩]⟩
    d.Proper ∧ d.toJson.depth ≤ depthLimit ∧ (∀ m ∈ d.toJson.numbers, m.Recovers) ∧
      read d.write = .ok d := by
  intro data style a d
  have hkind : ∀ name, a.kind = .other name → name ∉ NodeKind.reserved := by
    rintro _ ⟨⟩
    decide
  have hlink : ∀ name, EdgeKind.other "link" = .other name → name ∉ EdgeKind.reserved := by
    rintro _ ⟨⟩
    decide
  have hproper : d.Proper := by
    refine ⟨by decide +kernel, List.forall_mem_cons.mpr ⟨⟨hkind, ?_, ?_⟩,
      List.forall_mem_singleton.mpr ⟨nofun, ?_, ?_⟩⟩, List.forall_mem_singleton.mpr ⟨hlink, ?_⟩⟩
    all_goals unfold Passed; decide +kernel
  have hdepth : d.toJson.depth ≤ depthLimit := by decide +kernel
  have hnumbers : ∀ m ∈ d.toJson.numbers, m.Recovers := by decide +kernel
  exact ⟨hproper, hdepth, hnumbers, read_write hproper hdepth hnumbers⟩

end Diagram

end FlowCanvas
