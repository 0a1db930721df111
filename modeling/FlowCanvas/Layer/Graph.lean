/-!
Graphs over slots. A slot is the place of an element in the list that is to be layered; an edge is a
pair of slots. No edge leaves the slots, joins a slot to itself or occurs twice.
-/

namespace FlowCanvas

structure LayerGraph where
  size : Nat
  edges : List (Nat × Nat)
  valid : ∀ e ∈ edges, e.1 < size ∧ e.2 < size ∧ e.1 ≠ e.2
  nodup : edges.Nodup

namespace LayerGraph

def empty (size : Nat) : LayerGraph := ⟨size, [], by simp, by simp⟩

def add (g : LayerGraph) (e : Nat × Nat) : LayerGraph :=
  if h : (e.1 < g.size ∧ e.2 < g.size ∧ e.1 ≠ e.2) ∧ e ∉ g.edges then
    { g with
      edges := g.edges ++ [e]
      valid := by
        intro e' he
        rcases List.mem_append.1 he with he | he
        · exact g.valid e' he
        · rw [List.mem_singleton.1 he]; exact h.1
      nodup := by
        refine List.nodup_append.2 ⟨g.nodup, by simp, ?_⟩
        intro a ha b hb hab
        rw [List.mem_singleton] at hb
        exact h.2 (hb ▸ hab ▸ ha) }
  else g

def ofEdges (size : Nat) (edges : List (Nat × Nat)) : LayerGraph := edges.foldl add (empty size)

def successors (g : LayerGraph) (slot : Nat) : List Nat :=
  (g.edges.filter (·.1 == slot)).map (·.2)

def predecessors (g : LayerGraph) (slot : Nat) : List Nat :=
  (g.edges.filter (·.2 == slot)).map (·.1)

theorem mem_successors {g : LayerGraph} {s t : Nat} : t ∈ g.successors s ↔ (s, t) ∈ g.edges := by
  simp only [successors, List.mem_map, List.mem_filter, beq_iff_eq, Prod.exists]
  constructor
  · rintro ⟨a, b, ⟨h, rfl⟩, rfl⟩; exact h
  · intro h; exact ⟨s, t, ⟨h, rfl⟩, rfl⟩

theorem mem_predecessors {g : LayerGraph} {s t : Nat} :
    s ∈ g.predecessors t ↔ (s, t) ∈ g.edges := by
  simp only [predecessors, List.mem_map, List.mem_filter, beq_iff_eq, Prod.exists]
  constructor
  · rintro ⟨a, b, ⟨h, rfl⟩, rfl⟩; exact h
  · intro h; exact ⟨s, t, ⟨h, rfl⟩, rfl⟩

theorem add_size (g : LayerGraph) (e : Nat × Nat) : (g.add e).size = g.size := by
  unfold add; split <;> rfl

theorem mem_add {g : LayerGraph} {e e' : Nat × Nat} :
    e' ∈ (g.add e).edges ↔
      e' ∈ g.edges ∨ (e' = e ∧ e.1 < g.size ∧ e.2 < g.size ∧ e.1 ≠ e.2) := by
  unfold add
  split
  · rename_i h
    simp only [List.mem_append, List.mem_singleton]
    constructor
    · rintro (h' | rfl)
      · exact .inl h'
      · exact .inr ⟨rfl, h.1⟩
    · rintro (h' | h')
      · exact .inl h'
      · exact .inr h'.1
  · rename_i h
    constructor
    · exact .inl
    · rintro (h' | ⟨rfl, hv⟩)
      · exact h'
      · exact Classical.not_not.1 fun hm => h ⟨hv, hm⟩

theorem ofEdges_size (size : Nat) (edges : List (Nat × Nat)) :
    (ofEdges size edges).size = size := by
  suffices ∀ g : LayerGraph, (edges.foldl add g).size = g.size from this (empty size)
  induction edges with
  | nil => intro g; rfl
  | cons e es ih => intro g; rw [List.foldl_cons, ih, add_size]

end LayerGraph

end FlowCanvas
