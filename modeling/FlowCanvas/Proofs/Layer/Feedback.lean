import FlowCanvas.Proofs.Checked.Search

/-! The edges that are dropped. The graph without its back edges has the kept edges in the order of
their sources, and those of one source in the order that they had. So it loses entries of the lists
of successors but never moves one, and a list of predecessors is in ascending order. The dropped
edges are as few as they can be: with any of them there is a cycle again. -/

namespace FlowCanvas.LayerGraph

variable {g : LayerGraph}

theorem ofEdges_edges {size : Nat} {es : List (Nat × Nat)}
    (hvalid : ∀ e ∈ es, e.1 < size ∧ e.2 < size ∧ e.1 ≠ e.2) (hnodup : es.Nodup) :
    (ofEdges size es).edges = es := by
  induction es using List.reverseRecOn with
  | nil => rfl
  | append_singleton es e ih =>
    obtain ⟨hes, -, hfresh⟩ := List.nodup_append.mp hnodup
    have hedges := ih (fun e he => hvalid e (List.mem_append_left _ he)) hes
    have hallowed : (e.1 < (ofEdges size es).size ∧ e.2 < (ofEdges size es).size ∧ e.1 ≠ e.2) ∧
        e ∉ (ofEdges size es).edges := by
      rw [ofEdges_size, hedges]
      exact ⟨hvalid e (by simp), fun he => hfresh e he e List.mem_cons_self rfl⟩
    have hadd : ofEdges size (es ++ [e]) = (ofEdges size es).add e := List.foldl_concat ..
    rw [hadd, add, dif_pos hallowed]
    exact congrArg (· ++ [e]) hedges

theorem withoutBackEdges_edges (g : LayerGraph) : g.withoutBackEdges.edges = g.keptInOrder :=
  ofEdges_edges (fun e he => g.valid e (g.keptEdges_search.kept_old e (mem_keptInOrder.mp he)))
    g.keptInOrder_nodup

theorem flatMap_range_single {α : Type} (n s : Nat) (xs : List α) :
    ((List.range n).flatMap fun r => if r = s then xs else []) = if s < n then xs else [] := by
  induction n with
  | zero => rfl
  | succ n ih =>
    rw [List.range_succ, List.flatMap_append, ih, List.flatMap_singleton]
    rcases Nat.lt_trichotomy s n with h | rfl | h
    · simp [h, h.ne', Nat.lt_succ_of_lt h]
    · simp
    · have hn : ¬ s < n + 1 := by omega
      simp [h.ne, h.not_gt, hn]

theorem withoutBackEdges_successors (g : LayerGraph) (s : Nat) : g.withoutBackEdges.successors s =
    (g.successors s).filter fun t => g.keptEdges.contains (s, t) := by
  -- The kept edges stand source by source, and only the block of `s` has edges from it.
  have hblock (r : Nat) : ((((g.successors r).map fun t => (r, t)).filter
      g.keptEdges.contains).filter (·.1 == s)).map (·.2) =
        if r = s then (g.successors s).filter fun t => g.keptEdges.contains (s, t) else [] := by
    split
    · rename_i hr
      subst hr
      simp [List.filter_map, Function.comp_def]
    · rename_i hr
      rw [List.map_eq_nil_iff, List.filter_eq_nil_iff]
      intro e he
      obtain ⟨t, -, rfl⟩ := List.mem_map.mp (List.mem_of_mem_filter he)
      simpa using hr
  rw [successors, withoutBackEdges_edges, keptInOrder, List.filter_flatMap, List.map_flatMap]
  simp only [hblock]
  rw [flatMap_range_single]
  split
  · rfl
  · rename_i hs
    rw [eq_comm, List.filter_eq_nil_iff]
    intro t ht
    exact absurd (g.valid _ (mem_successors.mp ht)).1 hs

theorem withoutBackEdges_successors_of_acyclic (h : Acyclic g.edges) (s : Nat) :
    g.withoutBackEdges.successors s = g.successors s := by
  -- An edge that is dropped closes a cycle with the kept edges, which are old ones.
  rw [withoutBackEdges_successors, List.filter_eq_self]
  intro t ht
  have he := mem_successors.mp ht
  by_contra hdrop
  have hnot : (s, t) ∉ g.withoutBackEdges.edges := by
    rw [mem_withoutBackEdges]
    exact fun hk => hdrop (List.contains_iff_mem.mpr hk)
  have hback := (leads_of_dropped he hnot).mono fun e => withoutBackEdges_old
  exact h s ((Leads.edge he).trans hback)

theorem withoutBackEdges_predecessors_sorted (g : LayerGraph) (t : Nat) :
    (g.withoutBackEdges.predecessors t).Pairwise (· < ·) := by
  have hsources : g.withoutBackEdges.edges.Pairwise fun e e' => e.1 ≤ e'.1 := by
    rw [withoutBackEdges_edges]
    refine g.keptInOrder_sorted.imp fun {e e'} h => ?_
    simp only [Checked.Adjacency.before, key, Bool.or_eq_true, Bool.and_eq_true, beq_iff_eq] at h
    rcases h with h | h
    · exact Nat.le_of_lt (of_decide_eq_true h)
    · exact Nat.le_of_eq h.1
  have hweak : (g.withoutBackEdges.predecessors t).Pairwise (· ≤ ·) :=
    List.pairwise_map.mpr (hsources.filter _)
  exact hweak.imp₂ (fun _ _ => Nat.lt_of_le_of_ne) (g.withoutBackEdges.predecessors_nodup t)

/-- Of the graph that edges make, the search drops what closes a cycle and no more. What is stored
is the graph that is left, under its sources and under its ends alike. -/
theorem withoutBackEdges_minimal (slots : Nat) (edges : List (Nat × Nat)) :
    let g := ofEdges slots edges
    let k := g.withoutBackEdges
    (Checked.Adjacency.ofEdges? slots edges).bind (·.withoutBackEdges?) = some k.adjacency ∧
      (∀ e ∈ k.edges, e ∈ g.edges) ∧ Acyclic k.edges ∧
      (∀ u v, (u, v) ∈ g.edges → (u, v) ∉ k.edges →
        Leads k.edges v u ∧ ¬ Acyclic ((u, v) :: k.edges)) ∧
      (∀ s, (k.successors s).Sublist (g.successors s)) ∧
      (Acyclic g.edges → ∀ s, k.successors s = g.successors s) ∧
      (∀ s t, s ∈ k.predecessors t ↔ t ∈ k.successors s) ∧
      ∀ t, (k.predecessors t).Nodup ∧ (k.predecessors t).Pairwise (· < ·) := by
  intro g k
  refine ⟨?_, fun e => withoutBackEdges_old, g.withoutBackEdges_acyclic, ?_, ?_,
    withoutBackEdges_successors_of_acyclic, ?_, ?_⟩
  · rw [ofEdges?_adjacency, Option.bind_some]
    exact g.withoutBackEdges?_eq
  · intro u v he hdrop
    have hback := leads_of_dropped he hdrop
    have hcycle := (Leads.edge List.mem_cons_self).trans
      (hback.mono fun e he => List.mem_cons_of_mem (u, v) he)
    exact ⟨hback, fun hacyclic => hacyclic u hcycle⟩
  · intro s
    rw [withoutBackEdges_successors]
    exact List.filter_sublist
  · intro s t
    rw [mem_predecessors, mem_successors]
  · exact fun t => ⟨k.predecessors_nodup t, g.withoutBackEdges_predecessors_sorted t⟩

/-- Two cycles through one edge: the edges back to their first and to their second slot go. -/
example : (ofEdges 4 [(0, 2), (2, 3), (3, 1), (1, 2), (3, 0)]).withoutBackEdges.edges =
    [(0, 2), (2, 3), (3, 1)] := by cbv

end FlowCanvas.LayerGraph
