import FlowCanvas.Proofs.Arrangement.Outcome
import FlowCanvas.Proofs.Frame.Index

/-! Boxes and nodes agree. Who follows the parents that the boxes name, from a box on outward, and
adds up the positions that the nodes of these groups have in the end, comes to the corner of the
box. A node keeps all that it carries but its position and, if it is the group that counts for its
id, its declared size, which becomes that of its box. -/

namespace FlowCanvas

variable {α : Type}

/-- The positions of the groups around a box, from the nearest on, if its parent is given. The group
of an id is the first node with that id, and its box names the next parent. -/
inductive Arrangement.Chain (a : Arrangement α) : Option String → List (Point α) → Prop
  | free : Chain a none []
  | group {id : String} {j : Nat} {g : Node α} {b : Box α} {ps : List (Point α)}
      (hfirst : a.nodes.findIdx? (·.id == id) = some j) (hnode : a.nodes[j]? = some g)
      (hgroup : g.isGroup = true) (hbox : a.boxes[j]? = some b) (hrest : Chain a b.parent ps) :
      Chain a (some id) (g.position :: ps)

theorem Arrangement.Chain.unique {a : Arrangement α} {parent : Option String}
    {ps qs : List (Point α)} (h : a.Chain parent ps) (h' : a.Chain parent qs) : ps = qs := by
  induction h generalizing qs with
  | free =>
    cases h'
    rfl
  | group hfirst hnode _ hbox _ ih =>
    cases h' with
    | group hfirst' hnode' _ hbox' hrest' =>
      obtain rfl := Option.some.inj (hfirst.symm.trans hfirst')
      obtain rfl := Option.some.inj (hnode.symm.trans hnode')
      obtain rfl := Option.some.inj (hbox.symm.trans hbox')
      rw [ih hrest']

variable [Scalar α]

namespace Diagram

open Frames

variable (s : LayoutSettings α) (d : Diagram α) {m : Bool × Node α}

theorem index?_arranged (id : String) :
    (d.arrange s).nodes.findIdx? (·.id == id) = d.index? id := by
  rw [index?, ← marked_nodes d, nodes_outcome, List.findIdx?_map, List.findIdx?_map]
  congr 1
  funext m
  rw [Function.comp_apply, Plan.settle_node_id, Function.comp_apply]

theorem chain_of_climbs {id : String} {qs : List String} (h : Climbs (build d).links id qs) :
    (d.arrange s).Chain ((build d).parent? id) (qs.map (Plan.ofDiagram s d).positionOf) := by
  induction h with
  | top hid =>
    rw [parent?, hid]
    exact .free
  | @up id p qs hid _ ih =>
    have hparent : (build d).parent? id = some p := hid
    obtain ⟨g, hg, rfl, hgroup⟩ := (build_wellFormed d).parent?_group hparent
    obtain ⟨j, hj⟩ := mem_elements_iff.mp hg
    obtain ⟨hposition, hkind, hbox⟩ := Plan.settle_of_plain _ _ (isTool_of_isGroup hgroup)
    have hpositionOf : (Plan.ofDiagram s d).positionOf g.id =
        (Plan.outcome s d (true, g)).1.position := by
      rw [hposition, Plan.positionOf,
        show (Plan.ofDiagram s d).frames.element? g.id = some g from
          (build_wellFormed d).element?_of_mem hg]
    rw [hparent, List.map_cons, hpositionOf]
    refine .group ?_ (node_outcome s d hj.marked) ?_ (box_outcome s d hj.marked) ?_
    · rw [index?_arranged, hj.index?_eq]
    · rw [Node.isGroup, hkind]
      exact hgroup
    · rw [hbox]
      exact ih

theorem foldl_corner (qs : List (Point α)) (p : Point α) :
    qs.foldl (fun c q => (⟨c.x + q.x, c.y + q.y⟩ : Point α)) p =
      ⟨qs.foldl (fun x q => x + q.x) p.x, qs.foldl (fun y q => y + q.y) p.y⟩ := by
  induction qs generalizing p with
  | nil => rfl
  | cons q qs ih => exact ih ⟨p.x + q.x, p.y + q.y⟩

theorem chain_of_mark (hm : m ∈ d.marked) :
    ∃ ps, (d.arrange s).Chain (Plan.outcome s d m).2.parent ps ∧
      (Plan.outcome s d m).2.rect.x =
        ps.foldl (fun x p => x + p.x) (Plan.outcome s d m).1.position.x ∧
      (Plan.outcome s d m).2.rect.y =
        ps.foldl (fun y p => y + p.y) (Plan.outcome s d m).1.position.y := by
  obtain ⟨first, n⟩ := m
  cases first with
  | false => exact ⟨[], .free, rfl, rfl⟩
  | true =>
    cases htool : n.isTool with
    | true =>
      rw [Plan.outcome_of_first, Plan.placed, htool]
      exact ⟨[], .free, rfl, rfl⟩
    | false =>
      obtain ⟨hposition, -, hbox⟩ := Plan.settle_of_plain _ _ htool
      obtain ⟨qs, hqs⟩ := (build_wellFormed d).kept.ends n.id
      have hcorner : (Plan.ofDiagram s d).corner n =
          ((Plan.ofDiagram s d).frames.ancestors n.id |>.map
            (Plan.ofDiagram s d).positionOf).foldl (fun c q => ⟨c.x + q.x, c.y + q.y⟩)
              ((Plan.ofDiagram s d).position n) := rfl
      have habove : (Plan.ofDiagram s d).frames.ancestors n.id = qs := hqs.above_eq
      rw [habove, foldl_corner] at hcorner
      rw [hposition, hbox]
      refine ⟨_, chain_of_climbs s d hqs, ?_, ?_⟩
      · exact congrArg Point.x hcorner
      · exact congrArg Point.y hcorner

/-- Boxes and nodes are in the order of the given nodes. The parents lead outward from each box
through groups, whose positions add up to its corner; and nothing in a node changes but its position
and, for the group that counts for an id, its declared size, which is that of its box. -/
theorem arrange_faithful :
    (d.arrange s).nodes.length = d.nodes.length ∧
      (d.arrange s).boxes.length = d.nodes.length ∧
      ∀ (i : Nat) (n : Node α), d.nodes[i]? = some n → ∃ m b,
        (d.arrange s).nodes[i]? = some m ∧ (d.arrange s).boxes[i]? = some b ∧
        b.id = n.id ∧ b.kind = n.kind ∧
        (∃ ps, (d.arrange s).Chain b.parent ps) ∧
        (∀ ps, (d.arrange s).Chain b.parent ps →
          b.rect.x = ps.foldl (fun x p => x + p.x) m.position.x ∧
            b.rect.y = ps.foldl (fun y p => y + p.y) m.position.y) ∧
        (n.isGroup = true ∧ d.IsFirst i n → m = { n with
          position := m.position
          style := { n.style with
            width := some (.number b.rect.width)
            height := some (.number b.rect.height) } }) ∧
        (¬ (n.isGroup = true ∧ d.IsFirst i n) → m = { n with position := m.position }) := by
  have hnodes := arrange_nodes_length d s
  refine ⟨hnodes, (arrange_boxes_length d s).trans hnodes, ?_⟩
  intro i n hn
  obtain ⟨first, hm, hfirst⟩ := marked_of_node hn
  obtain ⟨ps, hchain, hx, hy⟩ := chain_of_mark s d (List.mem_of_getElem? hm)
  obtain ⟨hid, hkind⟩ := Plan.settle_box _ _ (first, n)
  refine ⟨_, _, node_outcome s d hm, box_outcome s d hm, hid, hkind, ⟨ps, hchain⟩, ?_, ?_, ?_⟩
  · intro qs hqs
    rw [hqs.unique hchain]
    exact ⟨hx, hy⟩
  · intro hgroup
    obtain rfl : first = true := hfirst.mpr hgroup.2
    exact Plan.settle_of_group _ _ hgroup.1
  · intro hother
    exact Plan.settle_of_other _ _ fun hgroup => hother ⟨hgroup.1, hfirst.mp hgroup.2⟩

theorem arrange_faithful_nested :
    let s : LayoutSettings Rat := .standard
    let a : Node Rat := { Node.new "a" .step with parent := some "g", position := ⟨-70, 31⟩ }
    let g : Node Rat := { Node.new "g" .group with parent := some "h", position := ⟨130, -45⟩ }
    let d : Diagram Rat := ⟨[a, g, .new "h" .group], []⟩
    ∃ m b ps, (d.arrange s).nodes[0]? = some m ∧ (d.arrange s).boxes[0]? = some b ∧
      b.parent = some "g" ∧ (d.arrange s).Chain b.parent ps ∧
      b.rect.x = ps.foldl (fun x p => x + p.x) m.position.x ∧
      m = { a with position := m.position } := by
  intro s a g d
  obtain ⟨-, -, hall⟩ := arrange_faithful s d
  obtain ⟨m, b, hm, hb, -, -, ⟨ps, hps⟩, hcorner, -, hother⟩ := hall 0 a rfl
  have hparent : (d.arrange s).boxes[0]?.map (·.parent) = some (some "g") := by decide +kernel
  rw [hb, Option.map_some, Option.some.injEq] at hparent
  exact ⟨m, b, ps, hm, hb, hparent, hps, (hcorner ps hps).1, hother fun h => nomatch h.1⟩

end Diagram

end FlowCanvas
