import FlowCanvas.Proofs.Association
import FlowCanvas.Proofs.Json.Canonical

/-! Plain values. All of a plain value can be looked at, none of its objects repeats a key and its
numbers can be carried along, so its canonical form is the value itself but for the order of fields:
what is found in it under a key is the canonical form of what was there before. -/

namespace FlowCanvas

namespace Json

mutual

def isUnrepeated : Json → Bool
  | .array items => itemsUnrepeated items
  | .object fields => fieldsUnrepeated fields
  | _ => true

def itemsUnrepeated : List Json → Bool
  | [] => true
  | j :: js => j.isUnrepeated && itemsUnrepeated js

def fieldsUnrepeated : List (String × Json) → Bool
  | [] => true
  | (k, j) :: fs => j.isUnrepeated && !(fs.map (·.1)).contains k && fieldsUnrepeated fs

end

structure Plain (j : Json) : Prop where
  readable : j.isReadable = true
  unrepeated : j.isUnrepeated = true
  portable : ∀ m ∈ j.numbers, m.isPortable = true

section Fields

variable {fs : List (String × Json)} {key : String} {j : Json}

theorem fieldsUnrepeated_iff : fieldsUnrepeated fs = true ↔
    (fs.map (·.1)).Nodup ∧ ∀ f ∈ fs, f.2.isUnrepeated = true := by
  induction fs with
  | nil => simp [fieldsUnrepeated]
  | cons f fs ih =>
    obtain ⟨k, j⟩ := f
    simp only [fieldsUnrepeated, Bool.and_eq_true, ih, Bool.not_eq_true', List.contains_eq_mem,
      decide_eq_false_iff_not, List.map_cons, List.nodup_cons, List.forall_mem_cons, and_assoc,
      and_left_comm]

theorem fieldsReadable_iff : fieldsReadable fs = true ↔ ∀ f ∈ fs, f.2.isReadable = true := by
  induction fs with
  | nil => simp [fieldsReadable]
  | cons f fs ih =>
    obtain ⟨k, j⟩ := f
    rw [fieldsReadable, Bool.and_eq_true, ih, List.forall_mem_cons]

theorem fieldsDepth_le_iff {d : Nat} : fieldsDepth fs ≤ d ↔ ∀ f ∈ fs, f.2.depth ≤ d := by
  induction fs with
  | nil => simp [fieldsDepth]
  | cons f fs ih =>
    obtain ⟨k, j⟩ := f
    rw [fieldsDepth, Nat.max_le, ih, List.forall_mem_cons]

theorem fieldNumbers_subset_of_mem {f : String × Json} (hf : f ∈ fs) :
    f.2.numbers ⊆ fieldNumbers fs := by
  induction fs with
  | nil => cases hf
  | cons g fs ih =>
    obtain ⟨k, j⟩ := g
    rw [fieldNumbers]
    rcases List.mem_cons.mp hf with rfl | hf
    · exact List.subset_append_left _ _
    · exact List.Subset.trans (ih hf) (List.subset_append_right _ _)

theorem Plain.of_mem (h : (Json.object fs).Plain) {f : String × Json} (hf : f ∈ fs) : f.2.Plain :=
  ⟨fieldsReadable_iff.mp h.readable f hf, (fieldsUnrepeated_iff.mp h.unrepeated).2 f hf,
    fun m hm => h.portable m (fieldNumbers_subset_of_mem hf hm)⟩

theorem Plain.nodup (h : (Json.object fs).Plain) : (fs.map (·.1)).Nodup :=
  (fieldsUnrepeated_iff.mp h.unrepeated).1

theorem insertField_perm (h : key ∉ fs.map (·.1)) :
    (insertField key j fs).Perm ((key, j) :: fs) := by
  induction fs with
  | nil => exact .refl _
  | cons f fs ih =>
    obtain ⟨k, v⟩ := f
    have hne : key ≠ k := fun he => h (he ▸ List.mem_cons_self)
    by_cases hlt : key < k
    · rw [insertField, if_pos hlt]
    · rw [insertField, if_neg hlt, if_neg hne]
      exact ((ih fun hmem => h (List.mem_cons_of_mem _ hmem)).cons (k, v)).trans (.swap _ _ _)

theorem fieldNumbers_insertField (key : String) (j : Json) (fs : List (String × Json)) :
    fieldNumbers (insertField key j fs) ⊆ j.numbers ++ fieldNumbers fs := by
  induction fs with
  | nil => exact fun _ hm => hm
  | cons f fs ih =>
    obtain ⟨k, v⟩ := f
    rw [insertField]
    split
    · exact fun _ hm => hm
    · split
      · exact List.subset_append_right _ _
      · rw [fieldNumbers, fieldNumbers]
        refine List.append_subset.mpr
          ⟨?_, List.Subset.trans ih (List.append_subset.mpr ⟨?_, ?_⟩)⟩
        · exact List.subset_append_of_subset_right _ (List.subset_append_left _ _)
        · exact List.subset_append_left _ _
        · exact List.subset_append_of_subset_right _ (List.subset_append_right _ _)

theorem canonicalFields_perm (h : (fs.map (·.1)).Nodup) :
    (canonicalFields fs).Perm (fs.map (Prod.map id canonical)) := by
  induction fs with
  | nil => exact .refl _
  | cons f fs ih =>
    obtain ⟨k, j⟩ := f
    obtain ⟨hk, hfs⟩ := List.nodup_cons.mp h
    have hrest := ih hfs
    have hnot : k ∉ (canonicalFields fs).map (·.1) := by
      rw [(hrest.map (·.1)).mem_iff, List.map_map]
      exact hk
    exact (insertField_perm hnot).trans (hrest.cons _)

theorem nodup_canonicalFields (h : (fs.map (·.1)).Nodup) :
    ((canonicalFields fs).map (·.1)).Nodup := by
  have hkeys := (canonicalFields_perm h).map (·.1)
  rw [List.map_map] at hkeys
  exact hkeys.nodup_iff.mpr h

theorem lookup_canonicalFields (h : (fs.map (·.1)).Nodup) (key : String) :
    (canonicalFields fs).lookup key = (fs.lookup key).map canonical := by
  have hsame := lookup_eq_of_perm (nodup_canonicalFields h) (canonicalFields_perm h) key
  rw [hsame]
  exact lookup_rename Function.injective_id canonical fs key

end Fields

theorem canonicalItems_eq_map (js : List Json) : canonicalItems js = js.map canonical := by
  induction js with
  | nil => rfl
  | cons j js ih => rw [canonicalItems, ih, List.map_cons]

theorem itemsReadable_iff {js : List Json} :
    itemsReadable js = true ↔ ∀ j ∈ js, j.isReadable = true := by
  induction js with
  | nil => simp [itemsReadable]
  | cons j js ih => rw [itemsReadable, Bool.and_eq_true, ih, List.forall_mem_cons]

theorem itemsUnrepeated_iff {js : List Json} :
    itemsUnrepeated js = true ↔ ∀ j ∈ js, j.isUnrepeated = true := by
  induction js with
  | nil => simp [itemsUnrepeated]
  | cons j js ih => rw [itemsUnrepeated, Bool.and_eq_true, ih, List.forall_mem_cons]

theorem itemNumbers_subset_of_mem {js : List Json} {j : Json} (hj : j ∈ js) :
    j.numbers ⊆ itemNumbers js := by
  induction js with
  | nil => cases hj
  | cons k js ih =>
    rw [itemNumbers]
    rcases List.mem_cons.mp hj with rfl | hj
    · exact List.subset_append_left _ _
    · exact List.Subset.trans (ih hj) (List.subset_append_right _ _)

theorem Plain.of_mem_items {js : List Json} (h : (Json.array js).Plain) {j : Json} (hj : j ∈ js) :
    j.Plain :=
  ⟨itemsReadable_iff.mp h.readable j hj, itemsUnrepeated_iff.mp h.unrepeated j hj,
    fun m hm => h.portable m (itemNumbers_subset_of_mem hj hm)⟩

theorem Plain.canonical_ne_null {j : Json} (h : j.Plain) (hj : j ≠ .null) :
    j.canonical ≠ .null := by
  cases j with
  | null => exact absurd rfl hj
  | number n =>
    rw [canonical, if_pos (h.portable n List.mem_cons_self)]
    nofun
  | unreadable => cases h.readable
  | bool b => nofun
  | text s => nofun
  | array items => nofun
  | object fields => nofun

mutual

theorem numbers_canonical : ∀ j : Json, j.canonical.numbers ⊆ j.numbers
  | .null => fun _ hm => hm
  | .bool _ => fun _ hm => hm
  | .number n => by
    rw [canonical]
    split
    · exact fun _ hm => hm
    · exact List.nil_subset _
  | .text _ => fun _ hm => hm
  | .array items => itemNumbers_canonicalItems items
  | .object fields => fieldNumbers_canonicalFields fields
  | .unreadable => fun _ hm => hm

theorem itemNumbers_canonicalItems :
    ∀ js : List Json, itemNumbers (canonicalItems js) ⊆ itemNumbers js
  | [] => fun _ hm => hm
  | j :: js => List.append_subset.mpr
    ⟨List.subset_append_of_subset_left _ (numbers_canonical j),
      List.subset_append_of_subset_right _ (itemNumbers_canonicalItems js)⟩

theorem fieldNumbers_canonicalFields :
    ∀ fs : List (String × Json), fieldNumbers (canonicalFields fs) ⊆ fieldNumbers fs
  | [] => fun _ hm => hm
  | (_, j) :: fs => List.Subset.trans (fieldNumbers_insertField _ _ _) (List.append_subset.mpr
    ⟨List.subset_append_of_subset_left _ (numbers_canonical j),
      List.subset_append_of_subset_right _ (fieldNumbers_canonicalFields fs)⟩)

end

end Json

end FlowCanvas
