import Mathlib.Data.List.Sym
import Mathlib.Data.Set.Card
import FlowCanvas.Proofs.Checked.Order
import FlowCanvas.Proofs.Layer.LongestPath

/-! The number of crossings. Two edges cross if both lead from one layer to the next one, and the
edge that starts first in its layer ends last. Each edge between two layers is one of the segments
that are compared, so every unordered pair of edges that cross is counted once, and none besides. -/

namespace FlowCanvas.Layers

/-- Both edges lead from one layer to another one, and the first of them starts before the second
one and ends after it. -/
structure OvertakesAt (upper lower : List Nat) (e e' : Nat × Nat) : Prop where
  start : e.1 ∈ upper
  start' : e'.1 ∈ upper
  stop : e.2 ∈ lower
  stop' : e'.2 ∈ lower
  before : upper.idxOf e.1 < upper.idxOf e'.1
  after : lower.idxOf e'.2 < lower.idxOf e.2

def Overtakes (layers : Layers) (e e' : Nat × Nat) : Prop :=
  ∃ r upper lower, layers[r]? = some upper ∧ layers[r + 1]? = some lower ∧
    OvertakesAt upper lower e e'

def Crossing (layers : Layers) (e e' : Nat × Nat) : Prop :=
  Overtakes layers e e' ∨ Overtakes layers e' e

theorem crossing_symm (layers : Layers) : Std.Symm (Crossing layers) := ⟨fun _ _ => Or.symm⟩

def crossed (g : LayerGraph) (layers : Layers) : Set (Sym2 (Nat × Nat)) :=
  {p | ¬ p.IsDiag ∧ (∀ e ∈ p, e ∈ g.edges) ∧ p ∈ Sym2.fromRel (crossing_symm layers)}

def crossedAt (g : LayerGraph) (upper lower : List Nat) : Set (Sym2 (Nat × Nat)) :=
  crossed g [upper, lower]

variable {g : LayerGraph} {layers rest : Layers} {upper lower : List Nat} {e e' : Nat × Nat}

theorem overtakes_cons : Overtakes (upper :: lower :: rest) e e' ↔
    OvertakesAt upper lower e e' ∨ Overtakes (lower :: rest) e e' := by
  constructor
  · rintro ⟨r, u, l, hu, hl, h⟩
    cases r with
    | zero =>
      cases hu
      cases hl
      exact Or.inl h
    | succ r => exact Or.inr ⟨r, u, l, hu, hl, h⟩
  · rintro (h | ⟨r, u, l, hu, hl, h⟩)
    · exact ⟨0, upper, lower, rfl, rfl, h⟩
    · exact ⟨r + 1, u, l, hu, hl, h⟩

theorem overtakes_pair : Overtakes [upper, lower] e e' ↔ OvertakesAt upper lower e e' := by
  rw [overtakes_cons, or_iff_left]
  rintro ⟨r, u, l, -, hl, -⟩
  simp at hl

theorem not_overtakes_short (h : layers.length ≤ 1) : ¬ Overtakes layers e e' := by
  rintro ⟨r, u, l, -, hl, -⟩
  have hlt := (List.getElem?_eq_some_iff.mp hl).1
  omega

theorem mem_crossed : s(e, e') ∈ crossed g layers ↔
    e ≠ e' ∧ (e ∈ g.edges ∧ e' ∈ g.edges) ∧ Crossing layers e e' := by
  simp only [crossed, Set.mem_ofPred_eq, Sym2.mk_isDiag_iff, Sym2.mem_iff, forall_eq_or_imp,
    forall_eq, Sym2.fromRel_prop, ne_eq]

theorem crossed_cons : crossed g (upper :: lower :: rest) =
    crossedAt g upper lower ∪ crossed g (lower :: rest) := by
  ext p
  induction p with
  | _ e e' =>
    simp only [Set.mem_union, crossedAt, mem_crossed, Crossing, overtakes_pair]
    rw [overtakes_cons, overtakes_cons]
    tauto

theorem crossed_short (h : layers.length ≤ 1) : crossed g layers = ∅ := by
  ext p
  induction p with
  | _ e e' => simp [mem_crossed, Crossing, not_overtakes_short h]

theorem Overtakes.starts_mem (h : Overtakes layers e e') :
    e.1 ∈ layers.flatten ∧ e'.1 ∈ layers.flatten := by
  obtain ⟨r, u, l, hu, -, h⟩ := h
  have hmem := List.mem_of_getElem? hu
  exact ⟨List.mem_flatten.mpr ⟨u, hmem, h.start⟩, List.mem_flatten.mpr ⟨u, hmem, h.start'⟩⟩

theorem crossed_disjoint (hnodup : (upper :: lower :: rest).flatten.Nodup) :
    ∀ p ∈ crossedAt g upper lower, p ∉ crossed g (lower :: rest) := by
  intro p hp hq
  induction p with
  | _ e e' =>
    have hstart : e.1 ∈ upper := by
      rcases (mem_crossed.mp hp).2.2 with h | h
      · exact (overtakes_pair.mp h).start
      · exact (overtakes_pair.mp h).start'
    have hrest : e.1 ∈ (lower :: rest).flatten := by
      rcases (mem_crossed.mp hq).2.2 with h | h
      · exact h.starts_mem.1
      · exact h.starts_mem.2
    rw [List.flatten_cons, List.nodup_append] at hnodup
    exact hnodup.2.2 _ hstart _ hrest rfl

def between (g : LayerGraph) (upper lower : List Nat) : List (Nat × Nat) :=
  upper.flatMap fun s => ((g.successors s).filter lower.contains).map fun t => (s, t)

theorem mem_between : e ∈ between g upper lower ↔ e.1 ∈ upper ∧ e.2 ∈ lower ∧ e ∈ g.edges := by
  simp only [between, List.mem_flatMap, List.mem_map, List.mem_filter, List.contains_iff_mem,
    LayerGraph.mem_successors]
  constructor
  · rintro ⟨s, hs, t, ⟨he, ht⟩, rfl⟩
    exact ⟨hs, ht, he⟩
  · rintro ⟨hs, ht, he⟩
    exact ⟨e.1, hs, e.2, ⟨he, ht⟩, rfl⟩

theorem between_nodup (hupper : upper.Nodup) : (between g upper lower).Nodup := by
  refine List.nodup_flatMap.mpr ⟨fun s _ => ?_, ?_⟩
  · have hinj : Function.Injective fun t : Nat => (s, t) := fun t t' h => (Prod.mk.inj h).2
    exact ((g.successors_nodup s).filter _).map hinj
  · refine hupper.imp fun {s s'} hs => ?_
    intro e he he'
    obtain ⟨t, -, rfl⟩ := List.mem_map.mp he
    obtain ⟨t', -, heq⟩ := List.mem_map.mp he'
    exact hs (Prod.mk.inj heq).1.symm

def placed (upper lower : List Nat) (e : Nat × Nat) : Nat × Nat :=
  (upper.idxOf e.1, lower.idxOf e.2)

theorem idxOf?_eq_idxOf {layer : List Nat} (hnodup : layer.Nodup) {s : Nat} (hs : s ∈ layer) :
    layer.idxOf? s = some (layer.idxOf s) := by
  rw [idxOf?_eq_some_iff_of_nodup hnodup]
  have hlt := List.idxOf_lt_length_iff.mpr hs
  rw [List.getElem?_eq_getElem hlt, List.getElem_idxOf hlt]

theorem segments_eq (hupper : upper.Nodup) (hlower : lower.Nodup) :
    segments g upper lower = (between g upper lower).map (placed upper lower) := by
  rw [segments, between, List.map_flatMap, List.flatMap_def, List.flatMap_def]
  conv_rhs => rw [← List.zipIdx_map_fst 0 upper, List.map_map]
  congr 1
  refine List.map_congr_left fun x hx => ?_
  have hplace : upper.idxOf x.1 = x.2 := by
    obtain ⟨hlt, hget⟩ := List.getElem?_eq_some_iff.mp (List.mem_zipIdx_iff_getElem?.mp hx)
    rw [← hget, hupper.idxOf_getElem]
  rw [Function.comp_apply, List.zipIdx_map_fst, List.map_map, ← List.filterMap_eq_map,
    List.filterMap_filter]
  refine List.filterMap_congr fun t _ => ?_
  by_cases ht : t ∈ lower
  · simp [ht, idxOf?_eq_idxOf hlower ht, placed, hplace]
  · simp [ht, List.idxOf?_eq_none_iff.mpr ht]

def crossPair : Sym2 (Nat × Nat) → Bool := Sym2.lift ⟨crosses, crosses_comm⟩

theorem crosses_self (a : Nat × Nat) : crosses a a = false := by simp [crosses]

theorem crossingPairs_eq (xs : List (Nat × Nat)) : crossingPairs xs = xs.sym2.countP crossPair := by
  induction xs with
  | nil => rfl
  | cons a xs ih =>
    have hself : crossPair s(a, a) = false := crosses_self a
    have hpairs : (crossPair ∘ fun b => s(a, b)) = crosses a := rfl
    rw [crossingPairs, List.sym2, List.countP_append, List.countP_map, hpairs, ih,
      List.countP_cons_of_neg (by simp [crosses_self])]

theorem crossPair_placed {p : Sym2 (Nat × Nat)} (hp : p ∈ (between g upper lower).sym2) :
    crossPair (p.map (placed upper lower)) = true ↔ p ∈ crossedAt g upper lower := by
  induction p with
  | _ e e' =>
    obtain ⟨he, he'⟩ := List.mk_mem_sym2_iff.mp hp
    obtain ⟨hs, ht, hedge⟩ := mem_between.mp he
    obtain ⟨hs', ht', hedge'⟩ := mem_between.mp he'
    rw [crossedAt, mem_crossed, Crossing, overtakes_pair, overtakes_pair]
    have hcross : crossPair (s(e, e').map (placed upper lower)) = true ↔
        (upper.idxOf e.1 < upper.idxOf e'.1 ∧ lower.idxOf e'.2 < lower.idxOf e.2) ∨
          (upper.idxOf e'.1 < upper.idxOf e.1 ∧ lower.idxOf e.2 < lower.idxOf e'.2) := by
      simp [crossPair, crosses, placed]
    rw [hcross]
    constructor
    · intro h
      refine ⟨?_, ⟨hedge, hedge'⟩, ?_⟩
      · rintro rfl
        simp at h
      · rcases h with ⟨h, h'⟩ | ⟨h, h'⟩
        · exact Or.inl ⟨hs, hs', ht, ht', h, h'⟩
        · exact Or.inr ⟨hs', hs, ht', ht, h, h'⟩
    · rintro ⟨-, -, h | h⟩
      · exact Or.inl ⟨h.before, h.after⟩
      · exact Or.inr ⟨h.before, h.after⟩

theorem mem_between_of_crossedAt {p : Sym2 (Nat × Nat)} (hp : p ∈ crossedAt g upper lower) :
    p ∈ (between g upper lower).sym2 := by
  induction p with
  | _ e e' =>
    obtain ⟨-, ⟨hedge, hedge'⟩, hcross⟩ := mem_crossed.mp hp
    rw [Crossing, overtakes_pair, overtakes_pair] at hcross
    rw [List.mk_mem_sym2_iff, mem_between, mem_between]
    rcases hcross with h | h
    · exact ⟨⟨h.start, h.stop, hedge⟩, h.start', h.stop', hedge'⟩
    · exact ⟨⟨h.start', h.stop', hedge⟩, h.start, h.stop, hedge'⟩

theorem crossedAt_encard (hupper : upper.Nodup) (hlower : lower.Nodup) :
    (crossedAt g upper lower).encard = crossingPairs (segments g upper lower) := by
  have hset : crossedAt g upper lower = (((between g upper lower).sym2.filter fun p =>
      crossPair (p.map (placed upper lower))).toFinset : Set (Sym2 (Nat × Nat))) := by
    ext p
    simp only [List.coe_toFinset, Set.mem_ofPred_eq, List.mem_filter]
    constructor
    · intro hp
      have hmem := mem_between_of_crossedAt hp
      exact ⟨hmem, (crossPair_placed hmem).mpr hp⟩
    · rintro ⟨hmem, hp⟩
      exact (crossPair_placed hmem).mp hp
  have hbetween : (between g upper lower).Nodup := between_nodup hupper
  have hdistinct := hbetween.sym2
  rw [hset, Set.encard_coe_eq_coe_finsetCard, List.toFinset_card_of_nodup (hdistinct.filter _),
    ← List.countP_eq_length_filter, segments_eq hupper hlower, crossingPairs_eq, List.sym2_map,
    List.countP_map]
  rfl

theorem crossed_encard (hnodup : layers.flatten.Nodup) :
    (crossed g layers).encard = crossings g layers := by
  fun_induction crossings g layers with
  | case1 upper lower rest ih =>
    have hlayer := (List.nodup_flatten.mp hnodup).1
    have hrest : (lower :: rest).flatten.Nodup :=
      hnodup.sublist (List.sublist_append_right upper _)
    rw [crossed_cons, Set.encard_union_eq (Set.disjoint_left.mpr fun p => crossed_disjoint hnodup p),
      crossedAt_encard (hlayer upper (by simp)) (hlayer lower (by simp)), ih hrest]
    norm_cast
  | case2 layers hshort =>
    have hlength : layers.length ≤ 1 := by
      rcases layers with - | ⟨upper, - | ⟨lower, rest⟩⟩
      · exact Nat.zero_le 1
      · exact Nat.le_refl 1
      · exact absurd rfl (hshort upper lower rest)
    rw [crossed_short hlength, Set.encard_empty]
    rfl

theorem exists_layer {i s : Nat} (h : s ∈ layers.getD i []) :
    ∃ layer, layers[i]? = some layer ∧ s ∈ layer := by
  rw [List.getD_eq_getElem?_getD] at h
  cases hlayer : layers[i]? with
  | none => simp [hlayer] at h
  | some layer => exact ⟨layer, rfl, by simpa [hlayer] using h⟩

theorem layer_unique (hnodup : layers.flatten.Nodup) {i j s : Nat} (hi : layers[i]? = some upper)
    (hj : layers[j]? = some lower) (hs : s ∈ upper) (hs' : s ∈ lower) : i = j := by
  have hdisjoint := List.pairwise_iff_getElem.mp (List.nodup_flatten.mp hnodup).2
  obtain ⟨hilt, rfl⟩ := List.getElem?_eq_some_iff.mp hi
  obtain ⟨hjlt, rfl⟩ := List.getElem?_eq_some_iff.mp hj
  rcases Nat.lt_trichotomy i j with hij | hij | hij
  · exact absurd hs' (hdisjoint i j hilt hjlt hij hs)
  · exact hij
  · exact absurd hs (hdisjoint j i hjlt hilt hij hs')

theorem Overtakes.apart (hnodup : layers.flatten.Nodup) (h : Overtakes layers e e') :
    (e.1 ≠ e'.1 ∧ e.2 ≠ e'.2 ∧ e.1 ≠ e'.2 ∧ e.2 ≠ e'.1) ∧
      (∀ i j, e.1 ∈ layers.getD i [] → e.2 ∈ layers.getD j [] → j = i + 1) ∧
      ∀ i j, e'.1 ∈ layers.getD i [] → e'.2 ∈ layers.getD j [] → j = i + 1 := by
  obtain ⟨r, upper, lower, hu, hl, hat⟩ := h
  have hends {s t : Nat} (hs : s ∈ upper) (ht : t ∈ lower) : s ≠ t := by
    rintro rfl
    exact absurd (layer_unique hnodup hu hl hs ht) (by omega)
  have hnext {s t i j : Nat} (hs : s ∈ upper) (ht : t ∈ lower) (hi : s ∈ layers.getD i [])
      (hj : t ∈ layers.getD j []) : j = i + 1 := by
    obtain ⟨_, hi, hsi⟩ := exists_layer hi
    obtain ⟨_, hj, htj⟩ := exists_layer hj
    rw [← layer_unique hnodup hu hi hs hsi, ← layer_unique hnodup hl hj ht htj]
  refine ⟨⟨?_, ?_, hends hat.start hat.stop', (hends hat.start' hat.stop).symm⟩,
    fun i j => hnext hat.start hat.stop, fun i j => hnext hat.start' hat.stop'⟩
  · intro he
    exact absurd hat.before (by simp [he])
  · intro he
    exact absurd hat.after (by simp [he])

/-- The crossings are counted as they are: one for every pair of different edges, in no order, that
cross. Edges that lead anywhere but to the next layer cross nothing, and no more do two edges with a
common end. -/
theorem crossings_exact (hnodup : layers.flatten.Nodup) :
    (crossed g layers).encard = crossings g layers ∧
      ((∀ s ∈ layers.flatten, s < g.size) →
        g.adjacency.crossings? layers = some (crossings g layers)) ∧
      ∀ e e', Crossing layers e e' →
        (e.1 ≠ e'.1 ∧ e.2 ≠ e'.2 ∧ e.1 ≠ e'.2 ∧ e.2 ≠ e'.1) ∧
          ∀ i j, e.1 ∈ layers.getD i [] → e.2 ∈ layers.getD j [] → j = i + 1 := by
  refine ⟨crossed_encard hnodup, fun hslots => ?_, ?_⟩
  · have hstands : Stands g layers.length layers := ⟨hnodup, hslots, rfl⟩
    exact hstands.crossings
  · rintro e e' (h | h)
    · obtain ⟨hends, hnext, -⟩ := h.apart hnodup
      exact ⟨hends, hnext⟩
    · obtain ⟨⟨hs, ht, hst, hts⟩, -, hnext⟩ := h.apart hnodup
      exact ⟨⟨hs.symm, ht.symm, hts.symm, hst.symm⟩, hnext⟩

theorem crossings_exact_twice :
    let g := LayerGraph.ofEdges 6 [(0, 3), (1, 2), (2, 5), (3, 4), (0, 5), (4, 1)]
    let layers : Layers := [[0, 1], [2, 3], [4, 5]]
    layers.flatten.Nodup ∧ (∀ s ∈ layers.flatten, s < g.size) ∧
      g.adjacency.crossings? layers = some 2 ∧ (crossed g layers).encard = 2 ∧
      ∀ e, ¬ Crossing layers (0, 5) e ∧ ¬ Crossing layers (4, 1) e := by
  intro g layers
  have hnodup : layers.flatten.Nodup := by decide
  have hslots : ∀ s ∈ layers.flatten, s < g.size := by decide
  have hcount : crossings g layers = 2 := by decide
  obtain ⟨hcard, hrun, hcross⟩ := crossings_exact (g := g) hnodup
  rw [hcount] at hcard hrun
  refine ⟨hnodup, hslots, hrun hslots, hcard, fun e => ⟨fun h => ?_, fun h => ?_⟩⟩
  · exact absurd ((hcross (0, 5) e h).2 0 2 (by decide) (by decide)) (by decide)
  · exact absurd ((hcross (4, 1) e h).2 2 0 (by decide) (by decide)) (by decide)

end FlowCanvas.Layers
