import FlowCanvas.Proofs.Diagram.Field

/-! What a diagram is written as. Each record is its known fields, some of which may be left out,
and then those that were passed along; the numbers of a diagram are those of its parts. -/

namespace FlowCanvas

open Json (fieldNumbers itemNumbers)

variable {P : Number → Prop}

theorem forall_itemNumbers {js : List Json} :
    (∀ m ∈ itemNumbers js, P m) ↔ ∀ j ∈ js, ∀ m ∈ j.numbers, P m := by
  induction js with
  | nil => simp [itemNumbers]
  | cons j js ih => rw [itemNumbers, List.forall_mem_append, ih, List.forall_mem_cons]

theorem forall_fieldNumbers {fs : List (String × Json)} :
    (∀ m ∈ fieldNumbers fs, P m) ↔ ∀ f ∈ fs, ∀ m ∈ f.2.numbers, P m := by
  induction fs with
  | nil => simp [fieldNumbers]
  | cons f fs ih =>
    obtain ⟨k, j⟩ := f
    rw [fieldNumbers, List.forall_mem_append, ih, List.forall_mem_cons]

theorem forall_fieldOf {β : Type} {key : String} {write : β → Json} {o : Option β} :
    (∀ f ∈ fieldOf key write o, ∀ m ∈ f.2.numbers, P m) ↔
      ∀ x, o = some x → ∀ m ∈ (write x).numbers, P m := by
  cases o with
  | none => simp [fieldOf]
  | some x => simp [fieldOf]

theorem forall_ofSingle {x : Float32} : (∀ m ∈ (ofSingle x).numbers, P m) ↔ P (.single x) := by
  simp [ofSingle, Json.numbers]

theorem Point.forall_numbers {p : Point Float32} :
    (∀ m ∈ p.toJson.numbers, P m) ↔ P (.single p.x) ∧ P (.single p.y) := by
  simp [toJson, ofSingle, Json.numbers, fieldNumbers]

namespace Style

variable (s : Style Float32)

def head : List (String × Json) :=
  fieldOf "width" Dimension.toJson s.width ++ fieldOf "height" Dimension.toJson s.height

theorem toJson_eq : s.toJson = .object (s.head ++ s.extra.fields) := rfl

theorem head_keys : (s.head.map (·.1)).Sublist keys := by
  rw [head, List.map_append]
  exact (fieldOf_keys "width" _ _).append (fieldOf_keys "height" _ _)

theorem head_width : s.head.lookup "width" = s.width.map Dimension.toJson := by
  rw [head, List.lookup_append, fieldOf_lookup, fieldOf_lookup_of_ne (by decide), Option.or_none]

theorem head_height : s.head.lookup "height" = s.height.map Dimension.toJson := by
  rw [head, List.lookup_append, fieldOf_lookup, fieldOf_lookup_of_ne (by decide), Option.none_or]

variable {s}

theorem forall_numbers : (∀ m ∈ s.toJson.numbers, P m) ↔
    (∀ w, s.width = some w → ∀ m ∈ w.toJson.numbers, P m) ∧
      (∀ w, s.height = some w → ∀ m ∈ w.toJson.numbers, P m) ∧
      ∀ m ∈ fieldNumbers s.extra.fields, P m := by
  rw [toJson_eq, Json.numbers, forall_fieldNumbers, forall_fieldNumbers, List.forall_mem_append,
    head, List.forall_mem_append, forall_fieldOf, forall_fieldOf, and_assoc]

theorem eq_plain_of_isEmpty (h : s.isEmpty = true) : s = plain := by
  obtain ⟨width, height, ⟨fields, hfields⟩⟩ := s
  simp only [isEmpty, Extras.isEmpty, Bool.and_eq_true, Option.isNone_iff_eq_none,
    List.isEmpty_iff] at h
  obtain ⟨⟨rfl, rfl⟩, rfl⟩ := h
  rfl

end Style

theorem Payload.eq_null_of_isNull {p : Payload} (h : p.isNull = true) : p = null := by
  obtain ⟨json, hjson⟩ := p
  rw [isNull] at h
  split at h
  · rename_i hnull
    subst hnull
    rfl
  · cases h

namespace Node

variable (n : Node Float32)

def head : List (String × Json) :=
  [("id", .text n.id), ("type", .text n.kind.name)]
    ++ fieldOf "parentId" Json.text n.parent
    ++ [("position", n.position.toJson)]
    ++ fieldOf "style" Style.toJson (Option.guard (!·.isEmpty) n.style)
    ++ fieldOf "data" Payload.json (Option.guard (!·.isNull) n.data)

theorem toJson_eq : n.toJson = .object (n.head ++ n.extra.fields) := by
  rw [toJson, head, Option.guard, Option.guard]
  cases n.style.isEmpty <;> cases n.data.isNull <;> rfl

theorem head_keys : (n.head.map (·.1)).Sublist keys := by
  have hparent := fieldOf_keys "parentId" Json.text n.parent
  have hstyle := fieldOf_keys "style" Style.toJson (Option.guard (!·.isEmpty) n.style)
  have hdata := fieldOf_keys "data" Payload.json (Option.guard (!·.isNull) n.data)
  have hrest := ((hparent.append (List.Sublist.refl ["position"])).append hstyle).append hdata
  have hkeys : ["id", "type", "parentId", "position", "style", "data"].Sublist keys := by decide
  simp only [head, List.map_append]
  exact ((List.Sublist.refl ["id", "type"]).append hrest).trans hkeys

def field? (key : String) : Option Json :=
  match key with
  | "id" => some (.text n.id)
  | "type" => some (.text n.kind.name)
  | "parentId" => n.parent.map Json.text
  | "position" => some n.position.toJson
  | "style" => (Option.guard (!·.isEmpty) n.style).map Style.toJson
  | "data" => (Option.guard (!·.isNull) n.data).map Payload.json
  | _ => none

theorem head_lookup (key : String) (hkey : key ∈ keys) : n.head.lookup key = n.field? key := by
  simp only [keys, List.mem_cons, List.not_mem_nil, or_false] at hkey
  rcases hkey with rfl | rfl | rfl | rfl | rfl | rfl | rfl <;>
    simp [head, field?, List.lookup_append, List.lookup_cons, fieldOf_lookup, fieldOf_lookup_of_ne]

variable {n}

theorem forall_numbers : (∀ m ∈ n.toJson.numbers, P m) ↔
    (∀ m ∈ n.position.toJson.numbers, P m) ∧ (∀ m ∈ n.style.toJson.numbers, P m) ∧
      (∀ m ∈ n.data.json.numbers, P m) ∧ ∀ m ∈ fieldNumbers n.extra.fields, P m := by
  have hstyle : (∀ s, Option.guard (!·.isEmpty) n.style = some s →
      ∀ m ∈ s.toJson.numbers, P m) ↔ ∀ m ∈ n.style.toJson.numbers, P m := by
    cases hempty : n.style.isEmpty with
    | true => simp [Option.guard, Style.eq_plain_of_isEmpty hempty, Style.plain, Style.toJson,
        fieldOf, Extras.none, Style.isEmpty, Extras.isEmpty, Json.numbers, fieldNumbers]
    | false => simp [Option.guard, hempty]
  have hdata : (∀ p, Option.guard (!·.isNull) n.data = some p →
      ∀ m ∈ p.json.numbers, P m) ↔ ∀ m ∈ n.data.json.numbers, P m := by
    cases hnull : n.data.isNull with
    | true => simp [Option.guard, Payload.eq_null_of_isNull hnull, Payload.null, Payload.isNull,
        Json.numbers]
    | false => simp [Option.guard, hnull]
  rw [toJson_eq, Json.numbers, forall_fieldNumbers, forall_fieldNumbers, head]
  simp only [List.forall_mem_append, List.forall_mem_cons, forall_fieldOf, hstyle, hdata,
    Json.numbers, List.not_mem_nil, IsEmpty.forall_iff, implies_true, true_and, and_true, and_assoc]

end Node

namespace Edge

variable (e : Edge)

def head : List (String × Json) :=
  [("id", .text e.id), ("source", .text e.source), ("target", .text e.target),
    ("type", .text e.kind.name)]

theorem toJson_eq : e.toJson = .object (e.head ++ e.extra.fields) := rfl

theorem forall_numbers : (∀ m ∈ e.toJson.numbers, P m) ↔
    ∀ m ∈ fieldNumbers e.extra.fields, P m := Iff.rfl

end Edge

theorem Diagram.forall_numbers {d : Diagram Float32} : (∀ m ∈ d.toJson.numbers, P m) ↔
    (∀ n ∈ d.nodes, ∀ m ∈ n.toJson.numbers, P m) ∧ ∀ e ∈ d.edges, ∀ m ∈ e.toJson.numbers, P m := by
  rw [toJson, Json.numbers, forall_fieldNumbers, List.forall_mem_cons, List.forall_mem_singleton,
    nodesToJson, Json.numbers, Json.numbers, forall_itemNumbers, forall_itemNumbers,
    List.forall_mem_map, List.forall_mem_map]

theorem Diagram.integer_isPortable (d : Diagram Float32) :
    ∀ m ∈ d.toJson.numbers, ∀ i, m = .integer i → m.isPortable = true := by
  have hdimension (w : Dimension Float32) :
      ∀ m ∈ w.toJson.numbers, ∀ i, m = .integer i → m.isPortable = true := by
    cases w with
    | text s => nofun
    | number x => exact forall_ofSingle.mpr nofun
  have hextra (e : Extras) :
      ∀ m ∈ fieldNumbers e.fields, ∀ i, m = .integer i → m.isPortable = true :=
    fun m hm _ _ => Json.isPortable_of_mem_fields e.canonical m hm
  refine forall_numbers.mpr ⟨fun n _ => Node.forall_numbers.mpr ⟨?_, ?_, ?_, hextra n.extra⟩,
    fun e _ => hextra e.extra⟩
  · exact Point.forall_numbers.mpr ⟨nofun, nofun⟩
  · exact Style.forall_numbers.mpr
      ⟨fun w _ => hdimension w, fun w _ => hdimension w, hextra n.style.extra⟩
  · exact fun m hm _ _ => Json.isPortable_of_mem n.data.canonical m hm

end FlowCanvas
