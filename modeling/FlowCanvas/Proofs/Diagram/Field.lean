import FlowCanvas.Diagram.Document
import FlowCanvas.Proofs.Association
import FlowCanvas.Proofs.Json.Canonical
import FlowCanvas.Proofs.Json.Reread

/-! Fields of a record. The known fields of a written record come first, each at most once, and what
was passed along follows them. If none of its keys is a known one, each known field is found among
the first ones and all the others are passed along again. -/

namespace FlowCanvas

open Json (fields? rereadFields)

variable {known : List String} {head extra fs : List (String × Json)} {key : String}

theorem fieldOf_keys {β : Type} (key : String) (write : β → Json) (o : Option β) :
    ((fieldOf key write o).map (·.1)).Sublist [key] := by
  cases o with
  | none => exact List.nil_sublist _
  | some x => exact List.Sublist.refl _

theorem fieldOf_lookup {β : Type} (key : String) (write : β → Json) (o : Option β) :
    (fieldOf key write o).lookup key = o.map write := by
  cases o with
  | none => rfl
  | some x => exact List.lookup_cons_self

theorem fieldOf_lookup_of_ne {β : Type} {k : String} (h : k ≠ key) (write : β → Json)
    (o : Option β) : (fieldOf key write o).lookup k = none := by
  cases o with
  | none => rfl
  | some x => rw [fieldOf, List.lookup_cons, beq_false_of_ne h]; rfl

theorem optional_written {β γ : Type} (value : β → γ) {default : γ} {read : Json → Option γ}
    {write : β → Json} {o : Option β} (hlookup : fs.lookup key = o.map write)
    (hread : ∀ x, o = some x → read (write x) = some (value x)) :
    optional fs key default read = some ((o.map value).getD default) := by
  rw [optional, hlookup]
  cases o with
  | none => rfl
  | some x => exact hread x rfl

def Passed (known : List String) (fs : List (String × Json)) : Prop := ∀ f ∈ fs, f.1 ∉ known

theorem Passed.lookup (h : Passed known extra) (hkey : key ∈ known) :
    (head ++ extra).lookup key = head.lookup key := by
  have hnone : extra.lookup key = none := by
    rw [List.lookup_eq_none_iff]
    intro f hf
    rw [bne_iff_ne]
    rintro rfl
    exact h f hf hkey
  rw [List.lookup_append, hnone, Option.or_none]

theorem Passed.fields? (h : Passed known extra) (hnodup : (head.map (·.1)).Nodup) :
    Json.fields? known (.object (head ++ extra)) = some (head ++ extra) := by
  have honce : (known.all fun k => (head ++ extra).countP (·.1 == k) ≤ 1) = true := by
    rw [List.all_eq_true]
    intro k hk
    have hhead : head.countP (·.1 == k) ≤ 1 := by
      have hcount := List.nodup_iff_count_le_one.mp hnodup k
      rwa [List.count, List.countP_map] at hcount
    have hextra : extra.countP (·.1 == k) = 0 := by
      rw [List.countP_eq_zero]
      intro f hf he
      exact h f hf (eq_of_beq he ▸ hk)
    rw [decide_eq_true_eq, List.countP_append, hextra]
    exact hhead
  rw [Json.fields?, if_pos honce]

theorem Passed.unknown (h : Passed known extra) (hhead : ∀ k ∈ head.map (·.1), k ∈ known) :
    unknown known (head ++ extra) = Extras.ofFields extra := by
  have hnone : head.filter (fun f => !known.contains f.1) = [] := by
    rw [List.filter_eq_nil_iff]
    intro f hf
    simp [hhead f.1 (List.mem_map_of_mem hf)]
  have hall : extra.filter (fun f => !known.contains f.1) = extra := by
    rw [List.filter_eq_self]
    intro f hf
    simp [h f hf]
  rw [FlowCanvas.unknown, List.filter_append, hnone, hall, List.nil_append]

theorem passed_unknown (known : List String) (fs : List (String × Json)) :
    Passed known (unknown known fs).fields := by
  have hinsert (k : String) (j : Json) (gs : List (String × Json)) (hk : k ∉ known)
      (hgs : Passed known gs) : Passed known (Json.insertField k j gs) := by
    induction gs with
    | nil =>
      intro f hf
      rw [List.mem_singleton.mp hf]
      exact hk
    | cons g gs ih =>
      obtain ⟨k', v⟩ := g
      have hv : k' ∉ known := hgs _ List.mem_cons_self
      have hrest := ih fun f hf => hgs f (List.mem_cons_of_mem _ hf)
      rw [Json.insertField]
      split
      · exact List.forall_mem_cons.mpr ⟨hk, hgs⟩
      · split
        · exact hgs
        · exact List.forall_mem_cons.mpr ⟨hv, hrest⟩
  have hcanonical (gs : List (String × Json)) (hgs : Passed known gs) :
      Passed known (Json.canonicalFields gs) := by
    induction gs with
    | nil => exact hgs
    | cons g gs ih =>
      obtain ⟨hg, hgs⟩ := List.forall_mem_cons.mp hgs
      exact hinsert _ _ _ hg (ih hgs)
  refine hcanonical _ fun f hf => ?_
  simpa using (List.mem_filter.mp hf).2

theorem rereadFields_append (fs gs : List (String × Json)) :
    rereadFields (fs ++ gs) = rereadFields fs ++ rereadFields gs := by
  simp only [Json.rereadFields_eq_map, List.map_append]

theorem rereadFields_keys (fs : List (String × Json)) :
    (rereadFields fs).map (·.1) = fs.map (·.1) := by
  rw [Json.rereadFields_eq_map, List.map_map]
  rfl

theorem rereadFields_lookup (fs : List (String × Json)) (key : String) :
    (rereadFields fs).lookup key = (fs.lookup key).map Json.reread := by
  rw [Json.rereadFields_eq_map]
  exact lookup_rename Function.injective_id Json.reread fs key

theorem Passed.reread (h : Passed known extra) : Passed known (rereadFields extra) := by
  intro f hf
  have hkey : f.1 ∈ extra.map (·.1) := by
    rw [← rereadFields_keys]
    exact List.mem_map_of_mem hf
  obtain ⟨g, hg, hsame⟩ := List.mem_map.mp hkey
  rw [← hsame]
  exact h g hg

theorem Passed.record (h : Passed known extra) (hdistinct : known.Nodup)
    (hhead : (head.map (·.1)).Sublist known) :
    Json.fields? known (Json.object (head ++ extra)).reread =
        some (rereadFields (head ++ extra)) ∧
      (∀ key ∈ known,
        (rereadFields (head ++ extra)).lookup key = (head.lookup key).map Json.reread) ∧
      FlowCanvas.unknown known (rereadFields (head ++ extra)) =
        Extras.ofFields (rereadFields extra) := by
  have hkeys : ((rereadFields head).map (·.1)).Sublist known := by rwa [rereadFields_keys]
  have hobject : (Json.object (head ++ extra)).reread =
      .object (rereadFields (head ++ extra)) := rfl
  rw [hobject, rereadFields_append]
  refine ⟨h.reread.fields? (hdistinct.sublist hkeys), fun key hkey => ?_,
    h.reread.unknown hkeys.subset⟩
  rw [h.reread.lookup hkey, rereadFields_lookup]

end FlowCanvas
