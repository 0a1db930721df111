import FlowCanvas.Proofs.Arrangement.Mirror
import FlowCanvas.Proofs.Arrangement.Outcome
import FlowCanvas.Proofs.Frame.Index
import FlowCanvas.Proofs.Frame.Map

/-! Arranged from structure. Ids, kinds, parents and edges decide where an element goes that is in
no group, and the size that a group declares is never looked at. Only the positions of elements in
groups are, and of the nodes that repeat an id the positions and declared sizes. -/

namespace FlowCanvas

variable {α : Type}

namespace Diagram

open Frames

/-- The same nodes and edges, but for the data of nodes, for where free elements lie, and for the
sizes that the first nodes of their ids declare. -/
structure Alike (d d' : Diagram α) : Prop where
  edges : d'.edges = d.edges
  shape : d'.nodes.map (fun n => (n.id, n.kind, n.parent)) =
    d.nodes.map fun n => (n.id, n.kind, n.parent)
  grouped : ∀ {i n m}, d.IsFirst i n → d'.nodes[i]? = some m →
    (build d).isGrouped n.id = true → m.position = n.position
  copies : ∀ {i n m}, d.nodes[i]? = some n → d'.nodes[i]? = some m → ¬ d.IsFirst i n →
    m.position = n.position ∧ m.style.width = n.style.width ∧ m.style.height = n.style.height

def redrawn (d' : Diagram α) (n : Node α) : Node α :=
  match d'.node? n.id with
  | some m => { m with
      id := n.id
      kind := n.kind
      parent := n.parent }
  | none => n

theorem redrawn_keeps (d' : Diagram α) : Node.Keeps d'.redrawn where
  id n := by
    rw [redrawn]
    split
    · rfl
    · rfl
  kind n := by
    rw [redrawn]
    split
    · rfl
    · rfl
  parent n := by
    rw [redrawn]
    split
    · rfl
    · rfl

theorem IsFirst.of_ids {d d' : Diagram α} {i : Nat} {n m : Node α}
    (hids : d'.nodes.map (·.id) = d.nodes.map (·.id)) (h : d.IsFirst i n)
    (hm : d'.nodes[i]? = some m) : d'.IsFirst i m := by
  have hat (j : Nat) : d'.nodes[j]?.map (·.id) = d.nodes[j]?.map (·.id) := by
    rw [← List.getElem?_map, hids, List.getElem?_map]
  have hid : m.id = n.id := by
    have hi := hat i
    rw [hm, h.1] at hi
    exact Option.some.inj hi
  refine ⟨hm, ?_⟩
  intro j b hj hb
  have hbefore := hat j
  rw [hb, Option.map_some, eq_comm, Option.map_eq_some_iff] at hbefore
  obtain ⟨a, ha, hab⟩ := hbefore
  rw [hid, ← hab]
  exact h.2 j a hj ha

namespace Alike

variable {d d' : Diagram α} {i : Nat} {n m : Node α} (h : d.Alike d')

include h

theorem ids : d'.nodes.map (·.id) = d.nodes.map (·.id) := by
  have hfst := congrArg (List.map Prod.fst) h.shape
  rw [List.map_map, List.map_map] at hfst
  exact hfst

theorem length : d'.nodes.length = d.nodes.length := by
  have hlength := congrArg List.length h.ids
  rw [List.length_map, List.length_map] at hlength
  exact hlength

theorem node_at (hn : d.nodes[i]? = some n) :
    ∃ m, d'.nodes[i]? = some m ∧ m.id = n.id ∧ m.kind = n.kind ∧ m.parent = n.parent := by
  have hat := congrArg (·[i]?) h.shape
  simp only [List.getElem?_map, hn, Option.map_some, Option.map_eq_some_iff, Prod.mk.injEq] at hat
  exact hat

theorem isFirst_iff (hn : d.nodes[i]? = some n) (hm : d'.nodes[i]? = some m) :
    d'.IsFirst i m ↔ d.IsFirst i n :=
  ⟨fun hfirst => hfirst.of_ids h.ids.symm hn, fun hfirst => hfirst.of_ids h.ids hm⟩

theorem redrawn_eq (hn : d.IsFirst i n) (hm : d'.nodes[i]? = some m) : d'.redrawn n = m := by
  obtain ⟨m', hm', hid, hkind, hparent⟩ := h.node_at hn.1
  obtain rfl : m' = m := Option.some.inj (hm'.symm.trans hm)
  have hfound : d'.node? n.id = some m' := by
    rw [← hid]
    exact node?_of_element ((h.isFirst_iff hn.1 hm).mpr hn).mem
  rw [redrawn, hfound]
  simp only [← hid, ← hkind, ← hparent]

theorem first?_eq (i : Nat) : d'.first? i = (d.first? i).map d'.redrawn := by
  cases hfirst : d.first? i with
  | some n =>
    have hn := first?_eq_some.mp hfirst
    obtain ⟨m, hm, -⟩ := h.node_at hn.1
    rw [Option.map_some, h.redrawn_eq hn hm, first?_eq_some, h.isFirst_iff hn.1 hm]
    exact hn
  | none =>
    rw [Option.map_none, Option.eq_none_iff_forall_ne_some]
    intro m hm
    have hmfirst := first?_eq_some.mp hm
    have hi : i < d.nodes.length := h.length ▸ hmfirst.lt
    have hn := (h.isFirst_iff (List.getElem?_eq_getElem hi) hmfirst.1).mp hmfirst
    rw [first?_eq_some.mpr hn] at hfirst
    cases hfirst

theorem elements : d'.elements = d.elements.map d'.redrawn := by
  rw [elements_eq_filterMap, elements_eq_filterMap, List.map_filterMap, h.length]
  exact List.filterMap_congr fun i _ => h.first?_eq i

theorem frames : build d' = (build d).map d'.redrawn := build_map d'.redrawn_keeps h.elements

theorem mirrors : Mirrors id d'.redrawn (build d) (build d') where
  injective := Function.injective_id
  plain := by
    have hplain : ((fun n : Node α => !n.isTool) ∘ d'.redrawn) = fun n => !n.isTool := by
      funext n
      rw [Function.comp_apply, d'.redrawn_keeps.isTool]
    rw [h.frames, Frames.plain, Frames.map, List.filter_map, hplain, Frames.plain]
  links := by
    rw [h.frames, Prod.map_id, List.map_id]
    rfl
  id n _ := d'.redrawn_keeps.id n
  kind n _ := d'.redrawn_keeps.kind n
  position n hn hgrouped := by
    obtain ⟨i, hi⟩ := mem_elements_iff.mp (mem_plain.mp hn).1
    obtain ⟨m, hm, -⟩ := h.node_at hi.1
    rw [h.redrawn_eq hi hm]
    exact h.grouped hi hm hgrouped

theorem slotRoutes_eq : (build d').slotRoutes d'.edges = (build d).slotRoutes d.edges := by
  rw [h.frames, h.edges, slotRoutes_map d'.redrawn_keeps]

variable [Scalar α] (s : LayoutSettings α)

theorem scene_eq : (Plan.ofDiagram s d').scene = (Plan.ofDiagram s d).scene := by
  rw [Plan.scene_mirrored h.mirrors s h.slotRoutes_eq, Scene.rename_id]

theorem toolPlaces_eq : Plan.toolPlaces s d' = Plan.toolPlaces s d := by
  rw [Plan.toolPlaces, h.scene_eq, h.frames, h.edges, Scene.placeTools_map d'.redrawn_keeps,
    Plan.toolPlaces]

theorem outcome_first (hn : n ∈ d.elements) :
    (Plan.outcome s d' (true, d'.redrawn n)).2 = (Plan.outcome s d (true, n)).2 ∧
      (Plan.outcome s d' (true, d'.redrawn n)).1.position =
        (Plan.outcome s d (true, n)).1.position := by
  rw [Plan.outcome_of_first, Plan.outcome_of_first]
  cases htool : n.isTool with
  | true =>
    have hkeeps := d'.redrawn_keeps
    have htool' : (d'.redrawn n).isTool = true := by rw [hkeeps.isTool, htool]
    rw [Plan.placed, Plan.placed, if_pos htool, if_pos htool', hkeeps.id, hkeeps.kind,
      h.toolPlaces_eq, Plan.ofDiagram_settings, Plan.ofDiagram_settings]
    exact ⟨rfl, rfl⟩
  | false =>
    have hplain : n ∈ (build d).plain := mem_plain.mpr ⟨hn, htool⟩
    rw [Plan.placed_mirrored h.mirrors s h.slotRoutes_eq hplain, Option.map_id_fun, id_eq, id_eq,
      Plan.placed, htool]
    exact ⟨rfl, rfl⟩

theorem outcome_copy (hn : d.nodes[i]? = some n) (hm : d'.nodes[i]? = some m)
    (hcopy : ¬ d.IsFirst i n) :
    (Plan.outcome s d' (false, m)).2 = (Plan.outcome s d (false, n)).2 ∧
      (Plan.outcome s d' (false, m)).1.position = (Plan.outcome s d (false, n)).1.position := by
  obtain ⟨m', hm', hid, hkind, -⟩ := h.node_at hn
  obtain rfl : m' = m := Option.some.inj (hm'.symm.trans hm)
  obtain ⟨hposition, hwidth, hheight⟩ := h.copies hn hm hcopy
  have hsize : s.footprint m' = s.footprint n := by
    rw [LayoutSettings.footprint, LayoutSettings.footprint, hkind, Style.width?, hwidth,
      Style.height?, hheight]
    rfl
  rw [Plan.outcome_of_copy, Plan.outcome_of_copy, Plan.spare, Plan.spare, Plan.ofDiagram_settings,
    Plan.ofDiagram_settings, hsize, hposition, hid, hkind]
  exact ⟨rfl, rfl⟩

theorem outcome_at (hn : d.nodes[i]? = some n) :
    ∃ first m, d.marked[i]? = some (first, n) ∧ d'.marked[i]? = some (first, m) ∧
      m.kind = n.kind ∧ (Plan.outcome s d' (first, m)).2 = (Plan.outcome s d (first, n)).2 ∧
      (Plan.outcome s d' (first, m)).1.position = (Plan.outcome s d (first, n)).1.position := by
  obtain ⟨m, hm, -, hkind, -⟩ := h.node_at hn
  obtain ⟨first, hmark, hfirst⟩ := marked_of_node hn
  obtain ⟨first', hmark', hfirst'⟩ := marked_of_node hm
  obtain rfl : first' = first := by
    rw [Bool.eq_iff_iff, hfirst', hfirst, h.isFirst_iff hn hm]
  refine ⟨first', m, hmark, hmark', hkind, ?_⟩
  cases first' with
  | true =>
    have hi := hfirst.mp rfl
    rw [← h.redrawn_eq hi hm]
    exact h.outcome_first s hi.mem
  | false =>
    apply h.outcome_copy s hn hm
    intro hi
    cases hfirst.mpr hi

theorem outcomes_eq :
    (d'.marked.map fun m => ((Plan.outcome s d' m).2, (Plan.outcome s d' m).1.position)) =
      d.marked.map fun m => ((Plan.outcome s d m).2, (Plan.outcome s d m).1.position) := by
  apply List.ext_getElem?
  intro i
  rw [List.getElem?_map, List.getElem?_map]
  by_cases hi : i < d.nodes.length
  · obtain ⟨first, m, hmark, hmark', -, hbox, hposition⟩ :=
      h.outcome_at s (List.getElem?_eq_getElem hi)
    rw [hmark, hmark', Option.map_some, Option.map_some, hbox, hposition]
  · have hle := Nat.le_of_not_lt hi
    rw [List.getElem?_eq_none (by rw [marked_length, h.length]; exact hle),
      List.getElem?_eq_none (by rw [marked_length]; exact hle), Option.map_none, Option.map_none]

end Alike

/-- Structure alone places what is free: the old positions of elements in no group, the sizes that
groups declare and the data of nodes have no influence. -/
theorem arrange_alike {d d' : Diagram α} [Scalar α] (s : LayoutSettings α) (h : d.Alike d') :
    (d'.arrange s).boxes = (d.arrange s).boxes ∧
      (d'.arrange s).bounds = (d.arrange s).bounds ∧
      (d'.arrange s).nodes.map (·.position) = (d.arrange s).nodes.map (·.position) ∧
      ∀ (i : Nat) (g : Node α), d.IsFirst i g → g.isGroup = true →
        ∃ a b, (d.arrange s).nodes[i]? = some a ∧ (d'.arrange s).nodes[i]? = some b ∧
          b.style.width = a.style.width ∧ b.style.height = a.style.height := by
  have hboxes : (d'.arrange s).boxes = (d.arrange s).boxes := by
    have hfst := congrArg (List.map Prod.fst) (h.outcomes_eq s)
    rw [List.map_map, List.map_map] at hfst
    rw [boxes_outcome, boxes_outcome]
    exact hfst
  refine ⟨hboxes, ?_, ?_, ?_⟩
  · rw [arrange_bounds, hboxes, arrange_bounds]
  · have hsnd := congrArg (List.map Prod.snd) (h.outcomes_eq s)
    rw [List.map_map, List.map_map] at hsnd
    rw [nodes_outcome, nodes_outcome, List.map_map, List.map_map]
    exact hsnd
  · intro i g hg hgroup
    obtain ⟨first, m, hmark, hmark', hkind, hbox, -⟩ := h.outcome_at s hg.1
    rw [hg.marked, Option.some.injEq, Prod.mk.injEq] at hmark
    obtain rfl : true = first := hmark.1
    have hgroup' : m.isGroup = true := by rw [Node.isGroup, hkind]; exact hgroup
    refine ⟨_, _, node_outcome s d hg.marked, node_outcome s d' hmark', ?_, ?_⟩
    · rw [Plan.settle_of_group _ _ hgroup', Plan.settle_of_group _ _ hgroup, hbox]
    · rw [Plan.settle_of_group _ _ hgroup', Plan.settle_of_group _ _ hgroup, hbox]

theorem arrange_alike_moved :
    let s : LayoutSettings Rat := .standard
    let a : Node Rat := { Node.new "a" .step with parent := some "g", position := ⟨10, 20⟩ }
    let g : Node Rat := .new "g" .group
    let g' : Node Rat := { g with
      position := ⟨-900, 55⟩
      style := { g.style with width := some (.number 700) } }
    let t : Node Rat := .new "t" .tool
    let d : Diagram Rat := ⟨[a, g, t, a], [.new "a" "t" .tool]⟩
    let d' : Diagram Rat := ⟨[a, g', { t with position := ⟨3, 4⟩ }, a], d.edges⟩
    d.Alike d' ∧ (d'.arrange s).boxes = (d.arrange s).boxes := by
  intro s a g g' t d d'
  have hg : d.IsFirst 1 g := marked_eq_first.mp rfl
  have ht : d.IsFirst 2 t := marked_eq_first.mp rfl
  have h : d.Alike d' :=
    { edges := rfl
      shape := rfl
      grouped := by
        intro i n m hn hm hgrouped
        match i, hn, hm with
        | 0, hn, hm => cases hn.1; cases hm; rfl
        | 1, hn, hm => cases hn.1; cases hm; cases hgrouped
        | 2, hn, hm => cases hn.1; cases hm; cases hgrouped
        | 3, hn, hm => cases hn.1; cases hm; rfl
        | i + 4, hn, hm => cases hm
      copies := by
        intro i n m hn hm hcopy
        match i, hn, hm, hcopy with
        | 0, hn, hm, _ => cases hn; cases hm; exact ⟨rfl, rfl, rfl⟩
        | 1, hn, _, hcopy => cases hn; exact absurd hg hcopy
        | 2, hn, _, hcopy => cases hn; exact absurd ht hcopy
        | 3, hn, hm, _ => cases hn; cases hm; exact ⟨rfl, rfl, rfl⟩
        | i + 4, hn, _, _ => cases hn }
  exact ⟨h, (arrange_alike s h).1⟩

end Diagram

end FlowCanvas
