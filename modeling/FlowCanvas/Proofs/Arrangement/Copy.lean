import FlowCanvas.Proofs.Arrangement.Outcome
import FlowCanvas.Proofs.Frame.Index

/-! Nodes that repeat an id. They have no part in the arrangement of the others, which stays the
same if they are left out; they go to the nearest points of the grid themselves. -/

namespace FlowCanvas

variable {α : Type} [Scalar α]

namespace Diagram

variable (s : LayoutSettings α) (d : Diagram α)

/-- The diagram without the nodes that repeat an id. -/
def distinct (d : Diagram α) : Diagram α := ⟨d.elements, d.edges⟩

/-- Of some items, one for each node, those of the first nodes of their ids. -/
def atFirsts {β : Type} (d : Diagram α) (items : List β) : List β :=
  (d.marked.zip items).filterMap fun (m, item) => if m.1 then some item else none

omit [Scalar α] in
theorem distinct_elements : d.distinct.elements = d.elements :=
  elements_of_nodup d.elements_nodup

omit [Scalar α] in
theorem atFirsts_map {β : Type} (F : Bool × Node α → β) :
    d.atFirsts (d.marked.map F) = d.elements.map fun n => F (true, n) := by
  have hmarks : ∀ ms : List (Bool × Node α),
      (ms.zip (ms.map F)).filterMap (fun (m, x) => if m.1 then some x else none) =
        (firsts ms).map fun n => F (true, n) := by
    intro ms
    induction ms with
    | nil => rfl
    | cons m ms ih =>
      obtain ⟨first, n⟩ := m
      cases first with
      | true => exact congrArg (F (true, n) :: ·) ih
      | false => exact ih
  exact hmarks d.marked

theorem outcome_distinct : Plan.outcome s d.distinct = Plan.outcome s d := by
  have hframes : Frames.build d.distinct = Frames.build d := by
    rw [Frames.build, distinct_elements, Frames.build]
  have hplan : Plan.ofDiagram s d.distinct = Plan.ofDiagram s d := by
    rw [Plan.ofDiagram, hframes]
    rfl
  have htools : Plan.toolPlaces s d.distinct = Plan.toolPlaces s d := by
    rw [Plan.toolPlaces, hplan, hframes]
    rfl
  funext m
  rw [Plan.outcome, hplan, htools, Plan.outcome]

/-- Nodes that repeat an id have no part in where the others go: without them these become the same
nodes with the same boxes. They themselves stay where they are, but for the grid. -/
theorem copies_inert :
    (d.distinct.arrange s).nodes = d.atFirsts (d.arrange s).nodes ∧
      (d.distinct.arrange s).boxes = d.atFirsts (d.arrange s).boxes ∧
      ∀ (i : Nat) (n : Node α), d.nodes[i]? = some n → ¬ d.IsFirst i n →
        ∃ m, (d.arrange s).nodes[i]? = some m ∧
          m.position = Grid.snapPoint n.position s.gridSize := by
  have hmarked : d.distinct.marked = d.elements.map fun n => (true, n) :=
    marked_of_nodup d.elements_nodup
  refine ⟨?_, ?_, ?_⟩
  · rw [nodes_outcome, nodes_outcome, atFirsts_map, hmarked, List.map_map, outcome_distinct]
    rfl
  · rw [boxes_outcome, boxes_outcome, atFirsts_map, hmarked, List.map_map, outcome_distinct]
    rfl
  · intro i n hn hcopy
    obtain ⟨first, hm, hfirst⟩ := marked_of_node hn
    cases first with
    | true => exact absurd (hfirst.mp rfl) hcopy
    | false => exact ⟨_, node_outcome s d hm, rfl⟩

theorem copies_inert_repeated :
    let s : LayoutSettings Rat := .standard
    let b : Node Rat := { Node.new "b" .step with parent := some "a" }
    let c : Node Rat := { Node.new "a" .group with position := ⟨7, 33⟩ }
    let d : Diagram Rat := ⟨[.new "a" .step, c, b, .new "a" .tool], [.new "a" "b" .route]⟩
    d.distinct.nodes = [.new "a" .step, b] ∧
      (d.distinct.arrange s).boxes = d.atFirsts (d.arrange s).boxes ∧
      ∃ m, (d.arrange s).nodes[1]? = some m ∧ m.position = ⟨0, 40⟩ := by
  intro s b c d
  obtain ⟨-, hboxes, hcopies⟩ := copies_inert s d
  obtain ⟨m, hm, hposition⟩ := hcopies 1 c rfl fun h => h.2 0 _ Nat.one_pos rfl rfl
  have hsnap : Grid.snapPoint c.position s.gridSize = ⟨0, 40⟩ := by decide +kernel
  exact ⟨rfl, hboxes, m, hm, hposition.trans hsnap⟩

end Diagram

end FlowCanvas
