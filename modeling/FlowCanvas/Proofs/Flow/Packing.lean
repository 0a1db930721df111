import FlowCanvas.Proofs.Flow.Bands

/-! Packing across the flow. A packed layer keeps the spacing between any two of its slots, and
moving the layer as a whole does not change that. Layers share no slot, so placing one leaves the
others as they were, and in the end every layer is as its last visit left it. -/

namespace FlowCanvas

namespace Flow

variable (s : LayoutSettings Rat) (flow : Flow Rat)

def Clear (p q : Nat × Rat) : Prop :=
  p.2 + flow.half s p.1 + flow.half s q.1 + s.nodeSpacing ≤ q.2

def Apart (centers : List (Nat × Rat)) (layer : List Nat) : Prop :=
  layer.Pairwise fun i j => flow.Clear s (i, centerOf centers i) (j, centerOf centers j)

theorem Apart.clear {centers : List (Nat × Rat)} {layer : List Nat}
    (h : flow.Apart s centers layer) {a b : Nat} (ha : a ∈ layer) (hb : b ∈ layer) (hab : a ≠ b) :
    flow.Clear s (a, centerOf centers a) (b, centerOf centers b) ∨
      flow.Clear s (b, centerOf centers b) (a, centerOf centers a) := by
  let R (i j : Nat) := flow.Clear s (i, centerOf centers i) (j, centerOf centers j)
  have hsymm : Std.Symm fun i j => R i j ∨ R j i := ⟨fun _ _ => Or.symm⟩
  have hany : layer.Pairwise fun i j => R i j ∨ R j i := List.Pairwise.imp Or.inl h
  exact hany.forall ha hb hab

section Pack

variable (hspacing : 0 ≤ s.nodeSpacing) (hhalf : ∀ slot, 0 ≤ flow.half s slot)

include hspacing hhalf

theorem packAfter_clear (last : Nat) (center : Rat) (wishes : List (Nat × Rat)) :
    (∀ q ∈ (wishes.map (·.1)).zip (flow.packAfter s last center wishes),
      flow.Clear s (last, center) q) ∧
    ((wishes.map (·.1)).zip (flow.packAfter s last center wishes)).Pairwise (flow.Clear s) := by
  induction wishes generalizing last center with
  | nil => simp
  | cons w rest ih =>
    obtain ⟨slot, wish⟩ := w
    simp only [packAfter, List.map_cons, List.zip_cons_cons]
    generalize hhere : Scalar.larger wish
      (center + flow.half s last + flow.half s slot + s.nodeSpacing) = here
    have hle : center + flow.half s last + flow.half s slot + s.nodeSpacing ≤ here := by
      rw [← hhere, Scalar.larger_eq_max]
      exact le_max_right _ _
    obtain ⟨hafter, hpair⟩ := ih slot here
    refine ⟨?_, hpair.cons hafter⟩
    intro q hq
    rcases List.mem_cons.mp hq with rfl | hq
    · exact hle
    · have hq' := hafter q hq
      have hslot := hhalf slot
      simp only [Clear] at hq' ⊢
      linarith

theorem pack_clear (wishes : List (Nat × Rat)) :
    ((wishes.map (·.1)).zip (flow.pack s wishes)).Pairwise (flow.Clear s) := by
  cases wishes with
  | nil => simp [pack]
  | cons w rest =>
    obtain ⟨hafter, hpair⟩ := packAfter_clear s flow hspacing hhalf w.1 w.2 rest
    exact hpair.cons hafter

theorem placeLayer_apart (placed : List (Nat × Rat)) (neighbors : Nat → List Nat)
    {layer : List Nat} (hn : layer.Nodup) :
    flow.Apart s (flow.placeLayer s placed (neighbors, layer)) layer := by
  generalize hw : layer.map (desired neighbors placed) = wishes
  have hlen : layer.length = wishes.length := by rw [← hw, List.length_map]
  have hslots : (layer.zip wishes).map (·.1) = layer := List.map_fst_zip hlen.le
  generalize hshift : Scalar.mean wishes - Scalar.mean (flow.pack s (layer.zip wishes)) = shift
  generalize hpairs : layer.zip ((flow.pack s (layer.zip wishes)).map (· + shift)) = pairs
  have hplace : flow.placeLayer s placed (neighbors, layer) = pairs ++ placed := by
    rw [← hpairs, ← hshift, ← hw]
    rfl
  have hclear : pairs.Pairwise (flow.Clear s) := by
    have hpack := pack_clear s flow hspacing hhalf (layer.zip wishes)
    rw [hslots] at hpack
    rw [← hpairs, List.zip_map_right, List.pairwise_map]
    apply hpack.imp
    intro p q hpq
    simp only [Clear, Prod.map_fst, Prod.map_snd, id_eq] at hpq ⊢
    linarith
  have hkeys : pairs.map (·.1) = layer := by
    rw [← hpairs]
    apply List.map_fst_zip
    rw [List.length_map, pack_length, List.length_zip, ← hlen, Nat.min_self]
  have hcenter : ∀ p ∈ pairs, centerOf (pairs ++ placed) p.1 = p.2 := by
    intro p hp
    rw [centerOf, lookup_append_of_mem (by rwa [hkeys]) hp, Option.getD_some]
  rw [hplace, Apart]
  conv => arg 2; rw [← hkeys]
  rw [List.pairwise_map]
  apply hclear.imp_of_mem
  intro p q hp hq hpq
  rwa [hcenter p hp, hcenter q hq]

end Pack

theorem placeLayer_other (placed : List (Nat × Rat)) (visit : (Nat → List Nat) × List Nat)
    {layer : List Nat} (hd : layer.Disjoint visit.2) :
    flow.Apart s (flow.placeLayer s placed visit) layer ↔ flow.Apart s placed layer := by
  have hcenter : ∀ i ∈ layer, centerOf (flow.placeLayer s placed visit) i = centerOf placed i := by
    intro i hi
    have hnot : ∀ xs : List Rat, i ∉ (visit.2.zip xs).map (·.1) := by
      intro xs hm
      obtain ⟨p, hp, rfl⟩ := List.mem_map.mp hm
      exact hd hi (List.of_mem_zip hp).1
    simp only [centerOf, placeLayer]
    rw [lookup_append_of_not_mem (hnot _)]
  constructor
  · intro h
    refine List.Pairwise.imp_of_mem ?_ h
    intro i j hi hj hij
    rwa [hcenter i hi, hcenter j hj] at hij
  · intro h
    refine List.Pairwise.imp_of_mem ?_ h
    intro i j hi hj hij
    rwa [hcenter i hi, hcenter j hj]

variable (hspacing : 0 ≤ s.nodeSpacing) (hhalf : ∀ slot, 0 ≤ flow.half s slot)
  (hn : flow.layers.flatten.Nodup)

include hspacing hhalf hn

theorem foldl_placeLayer_apart {visits : List ((Nat → List Nat) × List Nat)}
    (hvisits : ∀ v ∈ visits, v.2 ∈ flow.layers) (placed : List (Nat × Rat)) {layer : List Nat}
    (hl : layer ∈ flow.layers) (h : layer ∈ visits.map (·.2) ∨ flow.Apart s placed layer) :
    flow.Apart s (visits.foldl (flow.placeLayer s) placed) layer := by
  have hnodup := (List.nodup_flatten.mp hn).1
  induction visits generalizing placed with
  | nil => simpa using h
  | cons v visits ih =>
    rw [List.foldl_cons]
    refine ih (fun w hw => hvisits w (List.mem_cons_of_mem _ hw)) _ ?_
    by_cases hv : layer = v.2
    · right
      rw [hv]
      exact placeLayer_apart s flow hspacing hhalf placed v.1 (hv ▸ hnodup layer hl)
    · have hd := Layers.disjoint_of_flatten hn hl (hvisits v List.mem_cons_self) hv
      rcases h with h | h
      · rcases List.mem_cons.mp h with h | h
        · exact absurd h hv
        · exact Or.inl h
      · exact Or.inr ((placeLayer_other s flow placed v hd).mpr h)

theorem settled_apart {layer : List Nat} (hl : layer ∈ flow.layers) :
    flow.Apart s (flow.settled s) layer := by
  have hvisits : ∀ v ∈ flow.visits ++ flow.visits, v.2 ∈ flow.layers := by
    intro v hv
    rcases List.mem_append.mp hv with hv | hv <;> exact flow.mem_visits_layer hv
  refine foldl_placeLayer_apart s flow hspacing hhalf hn hvisits [] hl (Or.inl ?_)
  simp [visits, hl]

end Flow

end FlowCanvas
