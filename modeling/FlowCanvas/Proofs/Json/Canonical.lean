import FlowCanvas.Json.Value

/-! Canonical values. Their fields are in order and their numbers can be carried along, so making
them canonical once more changes nothing, and what a document passes along may be taken up again. -/

namespace FlowCanvas

namespace Json

theorem insertField_of_precedes {key : String} {j : Json} {fs : List (String × Json)}
    (h : precedes key fs = true) : insertField key j fs = (key, j) :: fs := by
  cases fs with
  | nil => rfl
  | cons f fs =>
    obtain ⟨k, v⟩ := f
    have hlt : key < k := by simpa [precedes] using h
    rw [insertField, if_pos hlt]

mutual

theorem canonical_of_isCanonical : ∀ {j : Json}, j.isCanonical = true → j.canonical = j
  | .null, _ => rfl
  | .bool _, _ => rfl
  | .number n, h => by
    have hn : n.isPortable = true := h
    rw [canonical, if_pos hn]
  | .text _, _ => rfl
  | .array items, h => congrArg Json.array (canonicalItems_of_itemsCanonical h)
  | .object fields, h => congrArg Json.object (canonicalFields_of_fieldsCanonical h)

theorem canonicalItems_of_itemsCanonical :
    ∀ {js : List Json}, itemsCanonical js = true → canonicalItems js = js
  | [], _ => rfl
  | j :: js, h => by
    rw [itemsCanonical, Bool.and_eq_true] at h
    rw [canonicalItems, canonical_of_isCanonical h.1, canonicalItems_of_itemsCanonical h.2]

theorem canonicalFields_of_fieldsCanonical :
    ∀ {fs : List (String × Json)}, fieldsCanonical fs = true → canonicalFields fs = fs
  | [], _ => rfl
  | (k, j) :: fs, h => by
    rw [fieldsCanonical, Bool.and_eq_true, Bool.and_eq_true] at h
    rw [canonicalFields, canonical_of_isCanonical h.1.1, canonicalFields_of_fieldsCanonical h.2,
      insertField_of_precedes h.1.2]

end

mutual

def numbers : Json → List Number
  | .number n => [n]
  | .array items => itemNumbers items
  | .object fields => fieldNumbers fields
  | _ => []

def itemNumbers : List Json → List Number
  | [] => []
  | j :: js => j.numbers ++ itemNumbers js

def fieldNumbers : List (String × Json) → List Number
  | [] => []
  | (_, j) :: fs => j.numbers ++ fieldNumbers fs

end

mutual

theorem isPortable_of_mem : ∀ {j : Json}, j.isCanonical = true →
    ∀ m ∈ j.numbers, m.isPortable = true
  | .number n, hj, m, hm => by
    rw [List.mem_singleton.mp hm]
    exact hj
  | .array _, hj, m, hm => isPortable_of_mem_items hj m hm
  | .object _, hj, m, hm => isPortable_of_mem_fields hj m hm

theorem isPortable_of_mem_items : ∀ {js : List Json}, itemsCanonical js = true →
    ∀ m ∈ itemNumbers js, m.isPortable = true
  | j :: js, hjs, m, hm => by
    rw [itemsCanonical, Bool.and_eq_true] at hjs
    rcases List.mem_append.mp hm with hm | hm
    · exact isPortable_of_mem hjs.1 m hm
    · exact isPortable_of_mem_items hjs.2 m hm

theorem isPortable_of_mem_fields : ∀ {fs : List (String × Json)}, fieldsCanonical fs = true →
    ∀ m ∈ fieldNumbers fs, m.isPortable = true
  | (_, j) :: fs, hfs, m, hm => by
    rw [fieldsCanonical, Bool.and_eq_true, Bool.and_eq_true] at hfs
    rcases List.mem_append.mp hm with hm | hm
    · exact isPortable_of_mem hfs.1.1 m hm
    · exact isPortable_of_mem_fields hfs.2 m hm

end

end Json

theorem Payload.ofJson_json (p : Payload) : Payload.ofJson p.json = p := by
  obtain ⟨j, hj⟩ := p
  rw [ofJson]
  congr 1
  exact Json.canonical_of_isCanonical hj

theorem Extras.ofFields_fields (e : Extras) : Extras.ofFields e.fields = e := by
  obtain ⟨fs, hfs⟩ := e
  rw [ofFields]
  congr 1
  exact Json.canonicalFields_of_fieldsCanonical hfs

end FlowCanvas
