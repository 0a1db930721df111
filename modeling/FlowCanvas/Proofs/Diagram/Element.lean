import Mathlib.Data.List.Nodup
import FlowCanvas.Frame

/-! The elements of a diagram. They are the nodes that are the first with their id, so no two of
them share an id, every id of a node is the id of one of them, and if no id repeats they are all
the nodes. -/

namespace FlowCanvas.Diagram

variable {α : Type}

theorem isTool_of_isGroup {n : Node α} (h : n.isGroup = true) : n.isTool = false := by
  have hkind : n.kind = .group := by simpa [Node.isGroup] using h
  simp [Node.isTool, hkind]

theorem isGroup_of_isTool {n : Node α} (h : n.isTool = true) : n.isGroup = false := by
  have hkind : n.kind = .tool := by simpa [Node.isTool] using h
  simp [Node.isGroup, hkind]

def firsts (marked : List (Bool × Node α)) : List (Node α) :=
  marked.filterMap fun (first, n) => if first then some n else none

theorem mem_firsts {marked : List (Bool × Node α)} {n : Node α} :
    n ∈ firsts marked ↔ (true, n) ∈ marked := by
  simp [firsts]

theorem mem_elements {d : Diagram α} {n : Node α} : n ∈ d.elements ↔ (true, n) ∈ d.marked :=
  mem_firsts

theorem firsts_cons (seen : List String) (n : Node α) (ns : List (Node α)) :
    firsts (mark seen (n :: ns)) =
      if n.id ∈ seen then firsts (mark (n.id :: seen) ns)
      else n :: firsts (mark (n.id :: seen) ns) := by
  by_cases h : n.id ∈ seen <;> simp [firsts, mark, h]

theorem firsts_nodup (seen : List String) (ns : List (Node α)) :
    ((firsts (mark seen ns)).map (·.id)).Nodup ∧
      ∀ n ∈ firsts (mark seen ns), n.id ∉ seen := by
  induction ns generalizing seen with
  | nil => simp [firsts, mark]
  | cons n ns ih =>
    obtain ⟨hnodup, hfresh⟩ := ih (n.id :: seen)
    rw [firsts_cons]
    by_cases h : n.id ∈ seen
    · rw [if_pos h]
      exact ⟨hnodup, fun m hm hs => hfresh m hm (List.mem_cons_of_mem _ hs)⟩
    · rw [if_neg h, List.map_cons, List.nodup_cons]
      refine ⟨⟨?_, hnodup⟩, ?_⟩
      · intro hmem
        obtain ⟨m, hm, he⟩ := List.mem_map.mp hmem
        exact hfresh m hm (he ▸ List.mem_cons_self)
      · intro m hm
        rcases List.mem_cons.mp hm with rfl | hm
        · exact h
        · exact fun hs => hfresh m hm (List.mem_cons_of_mem _ hs)

theorem elements_nodup (d : Diagram α) : (d.elements.map (·.id)).Nodup :=
  (firsts_nodup [] d.nodes).1

theorem mark_congr {seen seen' : List String} {ns : List (Node α)}
    (h : ∀ n ∈ ns, (n.id ∈ seen ↔ n.id ∈ seen')) : mark seen ns = mark seen' ns := by
  induction ns generalizing seen seen' with
  | nil => rfl
  | cons n ns ih =>
    have hn : seen.contains n.id = seen'.contains n.id := by
      rw [Bool.eq_iff_iff, List.contains_iff_mem, List.contains_iff_mem]
      exact h n List.mem_cons_self
    have hrest : mark (n.id :: seen) ns = mark (n.id :: seen') ns := by
      apply ih
      intro m hm
      rw [List.mem_cons, List.mem_cons, h m (List.mem_cons_of_mem _ hm)]
    rw [mark, mark, hn, hrest]

theorem mark_append (seen : List String) (ns ms : List (Node α)) :
    mark seen (ns ++ ms) = mark seen ns ++ mark ((ns.map (·.id)).reverse ++ seen) ms := by
  induction ns generalizing seen with
  | nil => rfl
  | cons n ns ih => simp [mark, ih]

theorem marked_nodes (d : Diagram α) : d.marked.map (·.2) = d.nodes := mark_nodes [] d.nodes

theorem marked_length (d : Diagram α) : d.marked.length = d.nodes.length := by
  rw [← marked_nodes, List.length_map]

theorem mark_of_nodup {seen : List String} {ns : List (Node α)}
    (hn : (ns.map (·.id)).Nodup) (hs : ∀ n ∈ ns, n.id ∉ seen) :
    mark seen ns = ns.map fun n => (true, n) := by
  induction ns generalizing seen with
  | nil => rfl
  | cons n ns ih =>
    rw [List.map_cons, List.nodup_cons] at hn
    have hns : ∀ m ∈ ns, m.id ∉ n.id :: seen := by
      intro m hm hmem
      rcases List.mem_cons.mp hmem with he | hmem
      · exact hn.1 (he ▸ List.mem_map_of_mem hm)
      · exact hs m (List.mem_cons_of_mem _ hm) hmem
    simp [mark, ih hn.2 hns, hs n List.mem_cons_self]

theorem marked_of_nodup {d : Diagram α} (h : (d.nodes.map (·.id)).Nodup) :
    d.marked = d.nodes.map fun n => (true, n) :=
  mark_of_nodup h (by simp)

theorem elements_of_nodup {d : Diagram α} (h : (d.nodes.map (·.id)).Nodup) :
    d.elements = d.nodes := by
  simp [elements, marked_of_nodup h]

theorem find?_firsts {id : String} (seen : List String) (ns : List (Node α)) (h : id ∉ seen) :
    (firsts (mark seen ns)).find? (·.id == id) = ns.find? (·.id == id) := by
  induction ns generalizing seen with
  | nil => rfl
  | cons n ns ih =>
    rw [firsts_cons]
    by_cases he : n.id = id
    · rw [if_neg (he ▸ h)]
      simp [he]
    · have hrest := ih (n.id :: seen) (by simp [h, Ne.symm he])
      split <;> simp [he, hrest]

theorem find?_mark {id : String} (seen : List String) (ns : List (Node α)) (h : id ∉ seen) :
    (mark seen ns).find? (·.2.id == id) = (ns.find? (·.id == id)).map fun n => (true, n) := by
  induction ns generalizing seen with
  | nil => rfl
  | cons n ns ih =>
    by_cases he : n.id = id
    · simp [mark, he, h]
    · have hrest := ih (n.id :: seen) (by simp [h, Ne.symm he])
      simp [mark, he, hrest]

theorem find?_elements (d : Diagram α) (id : String) : Frames.find? d.elements id = d.node? id :=
  find?_firsts [] d.nodes (by simp)

theorem find?_marked (d : Diagram α) (id : String) :
    d.marked.find? (·.2.id == id) = (d.node? id).map fun n => (true, n) :=
  find?_mark [] d.nodes (by simp)

end FlowCanvas.Diagram
