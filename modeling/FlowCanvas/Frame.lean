import FlowCanvas.Diagram

/-!
Frames: which group each element is drawn in. A node names its parent, but the link is kept only if
the parent is the first node of its id and a group, the node is no tool, and no cycle of groups
arises. Links are decided in the order of the nodes, so a cycle loses the link of its last node.
-/

namespace FlowCanvas

variable {α : Type}

/-- The elements of a diagram and the kept links from an element to its group, the latest first. -/
structure Frames (α : Type) where
  elements : List (Node α)
  links : List (String × String)

namespace Frames

def find? (elements : List (Node α)) (id : String) : Option (Node α) :=
  elements.find? (·.id == id)

def candidate? (elements : List (Node α)) (n : Node α) : Option String :=
  if n.isTool then none
  else n.parent.bind fun p => (find? elements p).bind fun m => if m.isGroup then some p else none

def climb (links : List (String × String)) : Nat → String → List String
  | 0, _ => []
  | n + 1, id =>
    match links.lookup id with
    | none => []
    | some p => p :: climb links n p

/-- All groups above an element. Kept links have no cycle, so there are no more steps than links. -/
def above (links : List (String × String)) (id : String) : List String :=
  climb links links.length id

def closesCycle (links : List (String × String)) (child group : String) : Bool :=
  (group :: above links group).contains child

def keep (elements : List (Node α)) (links : List (String × String)) (n : Node α) :
    List (String × String) :=
  match candidate? elements n with
  | none => links
  | some p => if closesCycle links n.id p then links else (n.id, p) :: links

def build (d : Diagram α) : Frames α :=
  ⟨d.elements, d.elements.foldl (keep d.elements) []⟩

variable (f : Frames α)

def element? (id : String) : Option (Node α) := find? f.elements id

def parent? (id : String) : Option String := f.links.lookup id

def isGrouped (id : String) : Bool := (f.parent? id).isSome

def ancestors (id : String) : List String := above f.links id

def topLevel (id : String) : String := (f.ancestors id).getLastD id

def depth (id : String) : Nat := (f.ancestors id).length

def children (id : String) : List (Node α) :=
  f.elements.filter fun n => f.parent? n.id == some id

def layered : List (Node α) := f.elements.filter fun n => !n.isTool && !f.isGrouped n.id

def tools : List (Node α) := f.elements.filter (·.isTool)

theorem climb_length_le (links : List (String × String)) (n : Nat) (id : String) :
    (climb links n id).length ≤ n := by
  induction n generalizing id with
  | zero => simp [climb]
  | succ n ih =>
    simp only [climb]
    split
    · simp
    · simpa using ih _

theorem depth_le (id : String) : f.depth id ≤ f.links.length :=
  climb_length_le _ _ _

theorem mem_children {id : String} {n : Node α} :
    n ∈ f.children id ↔ n ∈ f.elements ∧ f.parent? n.id = some id := by
  simp [children]

end Frames

end FlowCanvas
