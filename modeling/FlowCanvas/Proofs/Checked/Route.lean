import FlowCanvas.Flow
import FlowCanvas.Proofs.Checked.Cell

/-! Routes on checked arrays. Both ends of a route walk up to their outermost groups, which ends; as
different elements have different indices, the pairs of slots are those of the frames. -/

namespace FlowCanvas

variable {α β γ : Type}

namespace Checked

def topLevel? (d : Diagram α) (parents : List (Option Nat)) (i : Nat) : Option Nat := do
  let above ← climb? parents d.nodes.length i
  some (above.getLastD i)

def contract? (d : Diagram α) (parents : List (Option Nat)) (e : Edge) :
    Option (Option (Nat × Nat)) :=
  if e.kind = .route then
    match d.index? e.source, d.index? e.target with
    | some source, some target => do
      let source ← topLevel? d parents source
      let target ← topLevel? d parents target
      some (some (source, target))
    | _, _ => some none
  else some none

def routes? (d : Diagram α) (parents : List (Option Nat)) (layered : List Nat) :
    Option (List (Nat × Nat)) := do
  let pairs ← d.edges.mapM (contract? d parents)
  some ((pairs.filterMap id).filter fun p =>
    layered.contains p.1 && layered.contains p.2 && p.1 != p.2).eraseDups

def slotRoutes (layered : List Nat) (routes : List (Nat × Nat)) : List (Nat × Nat) :=
  routes.filterMap fun p =>
    (layered.idxOf? p.1).bind fun i => (layered.idxOf? p.2).map fun j => (i, j)

end Checked

open Checked

section Injective

variable [BEq β] [LawfulBEq β] [BEq γ] [LawfulBEq γ] {φ : β → γ} {xs : List β} {a : β}

theorem contains_map (h : ∀ x ∈ xs, φ x = φ a → x = a) :
    (xs.map φ).contains (φ a) = xs.contains a := by
  rw [Bool.eq_iff_iff, List.contains_iff_mem, List.contains_iff_mem, List.mem_map]
  constructor
  · rintro ⟨x, hx, he⟩
    rwa [← h x hx he]
  · exact fun ha => ⟨a, ha, rfl⟩

theorem idxOf?_map (h : ∀ x ∈ xs, φ x = φ a → x = a) :
    (xs.map φ).idxOf? (φ a) = xs.idxOf? a := by
  induction xs with
  | nil => rfl
  | cons x xs ih =>
    rw [List.map_cons, List.idxOf?_cons, List.idxOf?_cons,
      ih fun y hy => h y (List.mem_cons_of_mem _ hy)]
    have hsame : (φ x == φ a) = (x == a) := by
      rw [Bool.eq_iff_iff, beq_iff_eq, beq_iff_eq]
      exact ⟨h x List.mem_cons_self, fun he => by rw [he]⟩
    rw [hsame]

theorem eraseDups_map (h : ∀ x ∈ xs, ∀ y ∈ xs, φ x = φ y → x = y) :
    (xs.map φ).eraseDups = xs.eraseDups.map φ := by
  induction hn : xs.length using Nat.strong_induction_on generalizing xs with
  | _ n ih =>
    cases xs with
    | nil => rfl
    | cons x xs =>
      have hfilter : (xs.map φ).filter (fun y => !y == φ x) =
          (xs.filter fun y => !y == x).map φ := by
        rw [List.filter_map]
        congr 1
        refine List.filter_congr fun y hy => ?_
        have hsame : (φ y == φ x) = (y == x) := by
          rw [Bool.eq_iff_iff, beq_iff_eq, beq_iff_eq]
          exact ⟨h y (List.mem_cons_of_mem _ hy) x List.mem_cons_self, fun he => by rw [he]⟩
        simp [hsame]
      have hlen : (xs.filter fun y => !y == x).length < n := by
        rw [← hn, List.length_cons]
        exact Nat.lt_succ_of_le (List.length_filter_le _ _)
      rw [List.map_cons, List.eraseDups_cons, List.eraseDups_cons, hfilter, List.map_cons,
        ih _ hlen (fun y hy z hz => h y (List.mem_cons_of_mem _ (List.mem_of_mem_filter hy)) z
          (List.mem_cons_of_mem _ (List.mem_of_mem_filter hz))) rfl]

end Injective

namespace Frames

open Diagram

variable {d : Diagram α} {e : Edge} {i : Nat} {n : Node α} {id : String}

def Known (d : Diagram α) (id : String) : Prop := ∃ n ∈ d.elements, n.id = id

theorem placeOf_injOn {a b : String} (ha : Known d a) (hb : Known d b)
    (h : d.placeOf a = d.placeOf b) : a = b := by
  obtain ⟨n, hn, rfl⟩ := ha
  obtain ⟨m, hm, rfl⟩ := hb
  rw [placeOf_inj hn hm h]

theorem places_inj {p q : String × String} (hp : Known d p.1 ∧ Known d p.2)
    (hq : Known d q.1 ∧ Known d q.2)
    (h : (d.placeOf p.1, d.placeOf p.2) = (d.placeOf q.1, d.placeOf q.2)) : p = q :=
  Prod.ext (placeOf_injOn hp.1 hq.1 (congrArg Prod.fst h))
    (placeOf_injOn hp.2 hq.2 (congrArg Prod.snd h))

theorem topLevel_known (hn : n ∈ d.elements) : Known d ((build d).topLevel n.id) := by
  obtain ⟨i, hi⟩ := mem_elements_iff.mp hn
  obtain ⟨t, ht, hid⟩ := topLevelAt_of_first hi
  exact ⟨t, ht.mem, hid⟩

theorem topLevel?_eq (hi : d.IsFirst i n) :
    topLevel? d (groupTable d) i = some (d.placeOf ((build d).topLevel n.id)) := by
  rw [topLevel?, climb?_frames hi, Option.bind_eq_bind, Option.bind_some, topLevel,
    List.getLastD_eq_getLast?, List.getLastD_eq_getLast?, List.getLast?_map, ← hi.placeOf_eq]
  cases ((build d).ancestors n.id).getLast? <;> rfl

theorem contract?_eq (e : Edge) : contract? d (groupTable d) e =
    some (((build d).contracted? e).map fun p => (d.placeOf p.1, d.placeOf p.2)) := by
  unfold contract? contracted?
  by_cases hkind : e.kind = .route
  · cases hsource : d.index? e.source with
    | none => simp [hkind, element?_eq_none hsource]
    | some i =>
      cases htarget : d.index? e.target with
      | none => simp [hkind, element?_eq_none htarget]
      | some j =>
        obtain ⟨a, ha, haid⟩ := index?_eq_some.mp hsource
        obtain ⟨b, hb, hbid⟩ := index?_eq_some.mp htarget
        have hfa := (build_wellFormed d).element?_of_mem ha.mem
        have hfb := (build_wellFormed d).element?_of_mem hb.mem
        rw [haid] at hfa
        rw [hbid] at hfb
        simp [hkind, topLevel?_eq ha, topLevel?_eq hb, hfa, hfb, haid, hbid]
  · simp [hkind]

theorem contracted?_known {a b : String} (h : (build d).contracted? e = some (a, b)) :
    Known d a ∧ Known d b := by
  unfold contracted? at h
  split at h
  · rename_i hends
    obtain ⟨-, hsource, htarget⟩ := hends
    obtain ⟨n, hn⟩ := Option.isSome_iff_exists.mp hsource
    obtain ⟨m, hm⟩ := Option.isSome_iff_exists.mp htarget
    obtain ⟨hn, hnid⟩ := (build_wellFormed d).element?_eq_some.mp hn
    obtain ⟨hm, hmid⟩ := (build_wellFormed d).element?_eq_some.mp hm
    cases h
    exact ⟨hnid ▸ topLevel_known hn, hmid ▸ topLevel_known hm⟩
  · cases h

theorem layeredIds_known {a : String} (h : a ∈ (build d).layeredIds) : Known d a := by
  obtain ⟨n, hn, rfl⟩ := List.mem_map.mp h
  exact ⟨n, (mem_layered.mp hn).1, rfl⟩

theorem layered_contains {a : String} (ha : Known d a) :
    ((build d).layeredIds.map d.placeOf).contains (d.placeOf a) =
      (build d).layeredIds.contains a :=
  contains_map fun _ hx he => placeOf_injOn (layeredIds_known hx) ha he

theorem routes?_eq (d : Diagram α) : routes? d (groupTable d)
    ((build d).layeredIds.map d.placeOf) =
      some (((build d).routes d.edges).map fun p => (d.placeOf p.1, d.placeOf p.2)) := by
  have hpairs : (d.edges.map fun e =>
      ((build d).contracted? e).map fun p => (d.placeOf p.1, d.placeOf p.2)).filterMap id =
        (d.edges.filterMap (build d).contracted?).map fun p => (d.placeOf p.1, d.placeOf p.2) := by
    rw [List.filterMap_map, List.map_filterMap]
    rfl
  have hknown (p : String × String) (hp : p ∈ d.edges.filterMap (build d).contracted?) :
      Known d p.1 ∧ Known d p.2 := by
    obtain ⟨e, -, he⟩ := List.mem_filterMap.mp hp
    exact contracted?_known he
  -- Both ends of a pair are known, and places of known ids are different.
  rw [routes?, mapM_some fun e _ => contract?_eq e, Option.bind_eq_bind, Option.bind_some, hpairs,
    List.filter_map, eraseDups_map]
  · congr 3
    refine List.filter_congr fun p hp => ?_
    obtain ⟨ha, hb⟩ := hknown p hp
    have hne : (d.placeOf p.1 != d.placeOf p.2) = (p.1 != p.2) := by
      rw [Bool.eq_iff_iff, bne_iff_ne, bne_iff_ne]
      exact not_congr ⟨placeOf_injOn ha hb, fun he => by rw [he]⟩
    simp only [Function.comp_apply, layered_contains ha, layered_contains hb, hne]
  · intro p hp q hq he
    exact places_inj (hknown p (List.mem_of_mem_filter hp)) (hknown q (List.mem_of_mem_filter hq)) he

theorem slotRoutes_eq (d : Diagram α) : Checked.slotRoutes ((build d).layeredIds.map d.placeOf)
    (((build d).routes d.edges).map fun p => (d.placeOf p.1, d.placeOf p.2)) =
      (build d).slotRoutes d.edges := by
  rw [Checked.slotRoutes, List.filterMap_map, slotRoutes]
  refine List.filterMap_congr fun p hp => ?_
  obtain ⟨-, ha, hb, -⟩ := (build d).mem_routes.mp hp
  have hidx {a : String} (ha : a ∈ (build d).layeredIds) :
      ((build d).layeredIds.map d.placeOf).idxOf? (d.placeOf a) =
        (build d).layeredIds.idxOf? a :=
    idxOf?_map fun _ hx he => placeOf_injOn (layeredIds_known hx) (layeredIds_known ha) he
  simp only [Function.comp_apply, hidx ha, hidx hb]

end Frames

end FlowCanvas
