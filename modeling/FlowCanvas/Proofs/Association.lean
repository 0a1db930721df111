import Mathlib.Data.List.Nodup

/-! Association lists. A pair at the front is found if no key repeats there, and a key that is not
there is looked up in the rest. An entry of a list is found at its index if no entry repeats. -/

namespace FlowCanvas

variable {κ ν : Type} [BEq κ] [LawfulBEq κ] {xs ys : List (κ × ν)} {k : κ} {v : ν}

theorem lookup_eq_of_mem (hn : (xs.map (·.1)).Nodup) (h : (k, v) ∈ xs) :
    xs.lookup k = some v := by
  induction xs with
  | nil => cases h
  | cons p xs ih =>
    rw [List.map_cons, List.nodup_cons] at hn
    rcases List.mem_cons.mp h with rfl | h
    · exact List.lookup_cons_self
    · have hne : (k == p.1) = false := by
        rw [beq_eq_false_iff_ne]
        rintro rfl
        exact hn.1 (List.mem_map.mpr ⟨_, h, rfl⟩)
      rw [List.lookup_cons, hne]
      exact ih hn.2 h

theorem lookup_append_of_mem (hn : (xs.map (·.1)).Nodup) (h : (k, v) ∈ xs) :
    (xs ++ ys).lookup k = some v := by
  rw [List.lookup_append, lookup_eq_of_mem hn h, Option.some_or]

theorem lookup_append_of_not_mem (h : k ∉ xs.map (·.1)) : (xs ++ ys).lookup k = ys.lookup k := by
  have hnone : xs.lookup k = none := by
    rw [List.lookup_eq_none_iff]
    intro p hp
    rw [bne_iff_ne]
    rintro rfl
    exact h (List.mem_map_of_mem hp)
  rw [List.lookup_append, hnone, Option.none_or]

theorem idxOf?_eq_some_iff_of_nodup {keys : List κ} (hn : keys.Nodup) {i : Nat} :
    keys.idxOf? k = some i ↔ keys[i]? = some k := by
  rw [List.idxOf?_eq_some_iff, List.getElem?_eq_some_iff]
  constructor
  · rintro ⟨hi, he, -⟩
    exact ⟨hi, he⟩
  · rintro ⟨hi, he⟩
    refine ⟨hi, he, fun j hj hjk => ?_⟩
    have hji : j = i := hn.getElem_inj_iff.mp (hjk.trans he.symm)
    omega

theorem lookup_rename {κ' ν' : Type} [BEq κ'] [LawfulBEq κ'] {r : κ → κ'}
    (hr : Function.Injective r) (change : ν → ν') (xs : List (κ × ν)) (k : κ) :
    (xs.map (Prod.map r change)).lookup (r k) = (xs.lookup k).map change := by
  induction xs with
  | nil => rfl
  | cons p xs ih =>
    rw [List.map_cons, Prod.map, List.lookup_cons, List.lookup_cons, ih]
    by_cases hk : k = p.1
    · rw [hk, beq_self_eq_true, beq_self_eq_true]
      rfl
    · have hne : (k == p.1) = false := beq_eq_false_iff_ne.mpr hk
      have hrne : (r k == r p.1) = false := beq_eq_false_iff_ne.mpr fun he => hk (hr he)
      rw [hne, hrne]

theorem mem_of_lookup (h : xs.lookup k = some v) : (k, v) ∈ xs := by
  obtain ⟨l₁, l₂, rfl, -⟩ := List.lookup_eq_some_iff.mp h
  simp

theorem lookup_eq_of_perm (hn : (xs.map (·.1)).Nodup) (h : xs.Perm ys) (k : κ) :
    xs.lookup k = ys.lookup k := by
  have hn' : (ys.map (·.1)).Nodup := (h.map (·.1)).nodup_iff.mp hn
  refine Option.ext fun v => ⟨fun hv => ?_, fun hv => ?_⟩
  · exact lookup_eq_of_mem hn' (h.mem_iff.mp (mem_of_lookup hv))
  · exact lookup_eq_of_mem hn (h.mem_iff.mpr (mem_of_lookup hv))

end FlowCanvas
