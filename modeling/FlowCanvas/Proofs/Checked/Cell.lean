import FlowCanvas.Proofs.Checked.Link

/-! Arrays with a cell for every node. Such an array is the image of the marked nodes. The cell of
an element is found at its place, and a write there changes it for that element alone; so does a run
of writes at the places of different elements. -/

namespace FlowCanvas

variable {α β : Type}

namespace Checked

def indices (d : Diagram α) (p : Node α → Nat → Bool) : List Nat :=
  (d.marked.zipIdx.filter fun x => x.1.1 && p x.1.2 x.2).map (·.2)

end Checked

open Checked

namespace Diagram

variable {d : Diagram α} {i : Nat} {n : Node α} {m : Bool × Node α}

theorem first?_of_marked (h : d.marked[i]? = some m) :
    d.first? i = if m.1 then some m.2 else none := by
  obtain ⟨first, n⟩ := m
  rw [first?, h]
  cases first <;> rfl

theorem isFirst_of_marked (h : d.marked[i]? = some m) (hfirst : m.1 = true) : d.IsFirst i m.2 := by
  rw [← first?_eq_some, first?_of_marked h, if_pos hfirst]

theorem isFirst_placeOf (hn : n ∈ d.elements) : d.IsFirst (d.placeOf n.id) n := by
  obtain ⟨i, hi⟩ := mem_elements_iff.mp hn
  rwa [hi.placeOf_eq]

theorem placeOf_inj {n' : Node α} (hn : n ∈ d.elements) (hn' : n' ∈ d.elements)
    (h : d.placeOf n.id = d.placeOf n'.id) : n = n' :=
  (isFirst_placeOf hn).node_unique (h ▸ isFirst_placeOf hn')

theorem cell_read (F : Bool × Node α → β) (hn : n ∈ d.elements) :
    (d.marked.map F)[d.placeOf n.id]? = some (F (true, n)) := by
  rw [List.getElem?_map, (isFirst_placeOf hn).marked, Option.map_some]

def changed (F : Bool × Node α → β) (n : Node α) (x : β) (m : Bool × Node α) : β :=
  if m.1 && m.2.id == n.id then x else F m

theorem changed_map {γ : Type} (F : Bool × Node α → β) (x : β) (φ : β → γ) :
    (fun m => φ (changed F n x m)) = changed (fun m => φ (F m)) n (φ x) := by
  funext m
  unfold changed
  split <;> rfl

theorem cell_write (F : Bool × Node α → β) (hn : n ∈ d.elements) (x : β) :
    write? (d.marked.map F) (d.placeOf n.id) x = some (d.marked.map (changed F n x)) := by
  have hplace := isFirst_placeOf hn
  rw [write?, if_pos (by rw [List.length_map, marked_length]; exact hplace.lt)]
  congr 1
  apply List.ext_getElem?
  intro j
  rw [List.getElem?_set, List.getElem?_map, List.getElem?_map]
  by_cases hj : d.placeOf n.id = j
  · subst hj
    have hlen : d.placeOf n.id < (d.marked.map F).length := by
      rw [List.length_map, marked_length]
      exact hplace.lt
    rw [if_pos rfl, if_pos hlen, hplace.marked]
    simp [changed]
  · rw [if_neg hj]
    cases hm : d.marked[j]? with
    | none => rfl
    | some m =>
      have hother : (m.1 && m.2.id == n.id) = false := by
        by_contra h
        obtain ⟨hfirst, hid⟩ : m.1 = true ∧ m.2.id = n.id := by simpa using h
        have hjm := isFirst_of_marked hm hfirst
        rw [← hid, hjm.placeOf_eq] at hj
        exact hj rfl
      simp [changed, hother]

theorem cell_modify (F : Bool × Node α → β) (hn : n ∈ d.elements) (change : β → β) :
    modify? (d.marked.map F) (d.placeOf n.id) change =
      some (d.marked.map (changed F n (change (F (true, n))))) := by
  rw [modify?, cell_read F hn]
  exact cell_write F hn _

theorem contains_id {ns : List (Node α)} (hns : ∀ n ∈ ns, n ∈ d.elements) (hn : n ∈ d.elements) :
    (ns.map (·.id)).contains n.id = true ↔ n ∈ ns := by
  rw [List.contains_iff_mem, List.mem_map]
  constructor
  · rintro ⟨k, hk, hid⟩
    rwa [← (Frames.build_wellFormed d).eq_of_id (hns k hk) hn hid]
  · exact fun hmem => ⟨n, hmem, rfl⟩

theorem cells_changed {σ : Type} (arrays : (Bool × Node α → β) → σ)
    (hcongr : ∀ F G, (∀ m ∈ d.marked, F m = G m) → arrays F = arrays G)
    (step? : σ → Node α → Option σ) (value : Node α → β → β) {ns : List (Node α)}
    (hns : ∀ n ∈ ns, n ∈ d.elements) (hnodup : (ns.map (·.id)).Nodup)
    (hstep : ∀ n ∈ ns, ∀ F : Bool × Node α → β,
      step? (arrays F) n = some (arrays (changed F n (value n (F (true, n))))))
    (F : Bool × Node α → β) : ns.foldlM step? (arrays F) =
      some (arrays fun m =>
        if m.1 && (ns.map (·.id)).contains m.2.id then value m.2 (F m) else F m) := by
  induction ns generalizing F with
  | nil => simp
  | cons n ns ih =>
    rw [List.map_cons, List.nodup_cons] at hnodup
    have hn : n ∈ d.elements := hns n List.mem_cons_self
    rw [List.foldlM_cons, hstep n List.mem_cons_self, Option.bind_eq_bind, Option.bind_some,
      ih (fun m hm => hns m (List.mem_cons_of_mem _ hm)) hnodup.2
        fun m hm => hstep m (List.mem_cons_of_mem _ hm)]
    congr 1
    refine hcongr _ _ fun m hm => ?_
    obtain ⟨first, k⟩ := m
    cases first with
    | false => simp [changed]
    | true =>
      have hk : k ∈ d.elements := mem_elements.mpr hm
      by_cases hid : k.id = n.id
      · obtain rfl := (Frames.build_wellFormed d).eq_of_id hk hn hid
        have hnot : ¬ (true && (ns.map (·.id)).contains k.id) = true := by
          simpa [List.contains_iff_mem] using hnodup.1
        rw [if_neg hnot]
        simp [changed]
      · simp [changed, hid]

theorem cells_map {pass : (Bool × Node α) × Nat → β} {F : Bool × Node α → β}
    (h : ∀ i m, d.marked[i]? = some m → pass (m, i) = F m) :
    d.marked.zipIdx.map pass = d.marked.map F := by
  have hmap : d.marked.map F = d.marked.zipIdx.map fun x => F x.1 := by
    conv_lhs => rw [← List.zipIdx_map_fst 0 d.marked, List.map_map]
    rfl
  rw [hmap]
  exact List.map_congr_left fun x hx => h x.2 x.1 (List.mem_zipIdx_iff_getElem?.mp hx)

theorem cells_mapM {pass? : (Bool × Node α) × Nat → Option β} {F : Bool × Node α → β}
    (h : ∀ i m, d.marked[i]? = some m → pass? (m, i) = some (F m)) :
    d.marked.zipIdx.mapM pass? = some (d.marked.map F) := by
  have hmap : d.marked.map F = d.marked.zipIdx.map fun x => F x.1 :=
    (cells_map fun _ _ _ => rfl).symm
  rw [hmap]
  exact mapM_some fun x hx => h x.2 x.1 (List.mem_zipIdx_iff_getElem?.mp hx)

theorem indices_eq {p : Node α → Nat → Bool} {q : Node α → Bool}
    (h : ∀ i n, d.IsFirst i n → p n i = q n) :
    indices d p = (d.elements.filter q).map fun n => d.placeOf n.id := by
  rw [indices, zipIdx_filter fun (m : Bool × Node α) i => m.1 && p m.2 i, marked_length,
    elements_eq_filterMap, List.filter_filterMap, List.map_filterMap, ← List.filterMap_eq_filter]
  refine List.filterMap_congr fun i hi => ?_
  have hlen : i < d.marked.length := by
    rw [marked_length]
    exact List.mem_range.mp hi
  have hread := List.getElem?_eq_getElem hlen
  rw [first?_of_marked hread, Option.guard, hread, Option.any_some]
  cases hfirst : d.marked[i].1 with
  | false => simp
  | true =>
    have hi := isFirst_of_marked hread hfirst
    have hpq := h i _ hi
    rw [if_pos rfl]
    by_cases hp : p d.marked[i].2 i = true
    · simp [hp, ← hpq, Option.filter, hi.placeOf_eq]
    · simp [hp, ← hpq, Option.filter]

end Diagram

namespace Frames

open Diagram

variable {d : Diagram α} {i : Nat} {n : Node α} {m : Bool × Node α}

theorem groupAt?_eq (hi : d.IsFirst i n) :
    groupAt? d i = ((build d).parent? n.id).map d.placeOf := by
  rw [groupAt?_of_first hi]
  cases hparent : (build d).parent? n.id with
  | none => rfl
  | some p =>
    obtain ⟨g, hg, rfl, -⟩ := (build_wellFormed d).parent?_group hparent
    exact (isFirst_placeOf hg).index?_eq

theorem link_read (h : d.marked[i]? = some m) :
    (groupTable d)[i]?.join = if m.1 then ((build d).parent? m.2.id).map d.placeOf else none := by
  have hlt : i < d.nodes.length := by
    rw [← marked_length]
    exact (List.getElem?_eq_some_iff.mp h).1
  rw [table_read hlt, Option.join_some]
  cases hfirst : m.1 with
  | true => exact groupAt?_eq (isFirst_of_marked h hfirst)
  | false => rw [groupAt?, first?_of_marked h, hfirst]; rfl

end Frames

end FlowCanvas
