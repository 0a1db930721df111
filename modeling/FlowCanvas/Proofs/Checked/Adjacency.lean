import FlowCanvas.Layer.Graph
import FlowCanvas.Proofs.Checked.Table

/-! Adjacency lists. A graph over slots is stored as the successors and the predecessors of every
slot. An edge is added to both arrays at once, so that they always are those of one graph. -/

namespace FlowCanvas

namespace Checked

structure Adjacency where
  successors : List (List Nat)
  predecessors : List (List Nat)

namespace Adjacency

def empty (slots : Nat) : Adjacency := ⟨List.replicate slots [], List.replicate slots []⟩

def size (a : Adjacency) : Nat := a.successors.length

def add? (slots : Nat) (a : Adjacency) (e : Nat × Nat) : Option Adjacency :=
  if slots ≤ e.1 ∨ slots ≤ e.2 ∨ e.1 = e.2 then some a
  else do
    let old ← a.successors[e.1]?
    if old.contains e.2 then some a
    else do
      let successors ← modify? a.successors e.1 (· ++ [e.2])
      let predecessors ← modify? a.predecessors e.2 (· ++ [e.1])
      some ⟨successors, predecessors⟩

def ofEdges? (slots : Nat) (edges : List (Nat × Nat)) : Option Adjacency :=
  edges.foldlM (add? slots) (empty slots)

end Adjacency

end Checked

namespace LayerGraph

open Checked

variable {g : LayerGraph} {e : Nat × Nat} {s t : Nat}

def adjacency (g : LayerGraph) : Adjacency :=
  ⟨table g.size g.successors, table g.size g.predecessors⟩

@[simp] theorem adjacency_size : g.adjacency.size = g.size := table_length _ _

theorem successors_read (h : s < g.size) :
    g.adjacency.successors[s]? = some (g.successors s) := table_read h

theorem successor_lt (h : t ∈ g.successors s) : t < g.size :=
  (g.valid _ (mem_successors.mp h)).2.1

theorem predecessor_lt (h : s ∈ g.predecessors t) : s < g.size :=
  (g.valid _ (mem_predecessors.mp h)).1

theorem successors_append {edges : List (Nat × Nat)} (h : g.edges = edges ++ [e]) (s : Nat) :
    g.successors s = ((edges.filter (·.1 == s)).map (·.2)) ++ if e.1 = s then [e.2] else [] := by
  by_cases hs : e.1 = s <;> simp [successors, h, hs]

theorem predecessors_append {edges : List (Nat × Nat)} (h : g.edges = edges ++ [e]) (s : Nat) :
    g.predecessors s = ((edges.filter (·.2 == s)).map (·.1)) ++ if e.2 = s then [e.1] else [] := by
  by_cases hs : e.2 = s <;> simp [predecessors, h, hs]

theorem adjacency_add (hsize : (g.add e).size = g.size)
    (hedges : (g.add e).edges = g.edges ++ [e]) :
    (g.add e).adjacency =
      ⟨table g.size (Function.update g.successors e.1 (g.successors e.1 ++ [e.2])),
        table g.size (Function.update g.predecessors e.2 (g.predecessors e.2 ++ [e.1]))⟩ := by
  rw [adjacency, hsize]
  congr 1
  · refine table_congr fun s _ => ?_
    rw [successors_append hedges]
    by_cases hs : s = e.1
    · simp [hs, successors]
    · simp [hs, Ne.symm hs, successors]
  · refine table_congr fun s _ => ?_
    rw [predecessors_append hedges]
    by_cases hs : s = e.2
    · simp [hs, predecessors]
    · simp [hs, Ne.symm hs, predecessors]

theorem add?_adjacency (g : LayerGraph) (e : Nat × Nat) :
    Adjacency.add? g.size g.adjacency e = some (g.add e).adjacency := by
  unfold Adjacency.add?
  by_cases hvalid : e.1 < g.size ∧ e.2 < g.size ∧ e.1 ≠ e.2
  · obtain ⟨h1, h2, hne⟩ := hvalid
    have hguard : ¬ (g.size ≤ e.1 ∨ g.size ≤ e.2 ∨ e.1 = e.2) := by omega
    rw [if_neg hguard, successors_read h1, Option.bind_eq_bind, Option.bind_some]
    by_cases hmem : e ∈ g.edges
    · have hold : (g.successors e.1).contains e.2 = true := by
        rw [List.contains_iff_mem, mem_successors]
        exact hmem
      rw [if_pos hold, add, dif_neg (by simp [hmem])]
    · have hnew : ¬ (g.successors e.1).contains e.2 = true := by
        rw [List.contains_iff_mem, mem_successors]
        exact hmem
      have hedges : (g.add e).edges = g.edges ++ [e] := by
        rw [add, dif_pos ⟨⟨h1, h2, hne⟩, hmem⟩]
      rw [if_neg hnew, adjacency_add (add_size g e) hedges]
      simp only [adjacency, table_modify h1, table_modify h2, Option.bind_eq_bind,
        Option.bind_some]
  · have hguard : g.size ≤ e.1 ∨ g.size ≤ e.2 ∨ e.1 = e.2 := by omega
    rw [if_pos hguard, add, dif_neg fun h => hvalid h.1]

theorem ofEdges?_adjacency (slots : Nat) (edges : List (Nat × Nat)) :
    Adjacency.ofEdges? slots edges = some (ofEdges slots edges).adjacency := by
  have hempty : Adjacency.empty slots = (empty slots).adjacency := by
    rw [Adjacency.empty, table_const]
    rfl
  have hrun := foldlM_follows (Adjacency.add? slots) add adjacency (fun g => g.size = slots)
    edges (empty slots) rfl (by
      rintro g e - rfl
      exact ⟨add?_adjacency g e, add_size g e⟩)
  rw [Adjacency.ofEdges?, hempty, hrun.1, ofEdges]

end LayerGraph

end FlowCanvas
