import FlowCanvas.Arrangement
import FlowCanvas.Number.Style

/-!
Checking an arrangement. A finding names a property that an arrangement should have and where it
does not hold; an arrangement without findings is clean. If the nodes are not those of the diagram
there is nothing else to compare, so that finding stands alone.
-/

namespace FlowCanvas

variable {α : Type} [Scalar α]

inductive Finding (α : Type)
  | identityMismatch
  | offGrid (id : String) (grid : α)
  | topLevelOverlap (first second : String)
  | outsideGroup (id group : String)
  | toolOverGroup (tool group : String)
  | groupTooSmall (id : String)

namespace Finding

def message : Finding Float32 → String
  | .identityMismatch => "output node list does not match the input node ids"
  | .offGrid id grid =>
    let width := String.ofList (NumberStyle.plain.write (Binary.ofSingle grid))
    "node '" ++ id ++ "' is off the " ++ width ++ " unit grid"
  | .topLevelOverlap first second =>
    "top-level nodes '" ++ first ++ "' and '" ++ second ++ "' overlap"
  | .outsideGroup id group => "node '" ++ id ++ "' escapes its group '" ++ group ++ "'"
  | .toolOverGroup tool group => "tool '" ++ tool ++ "' intersects group '" ++ group ++ "'"
  | .groupTooSmall id => "group '" ++ id ++ "' is smaller than the minimum size"

end Finding

namespace Arrangement

variable (s : LayoutSettings α) (a : Arrangement α)

def isOnGrid (p : Point α) : Bool := Grid.isOn p.x s.gridSize && Grid.isOn p.y s.gridSize

def offGrid : List (Finding α) :=
  (a.nodes.filter fun n => !isOnGrid s n.position).map fun n => .offGrid n.id s.gridSize

def topLevel : List (Box α) := a.boxes.filter fun b => b.parent.isNone && b.kind ≠ .tool

def overlaps : List (Box α) → List (Finding α)
  | [] => []
  | b :: rest =>
    ((rest.filter fun c => b.rect.intersects c.rect).map fun c => .topLevelOverlap b.id c.id) ++
      overlaps rest

def escape? (b : Box α) : Option (Finding α) :=
  b.parent.bind fun group =>
    (a.box? group).bind fun g =>
      if g.rect.contains b.rect then none else some (.outsideGroup b.id group)

def isSmall (b : Box α) : Bool :=
  b.rect.width < s.minGroupWidth || b.rect.height < s.minGroupHeight

def tooSmall : List (Finding α) := (a.groups.filter (isSmall s)).map fun g => .groupTooSmall g.id

def tools : List (Box α) := a.boxes.filter (·.kind = .tool)

def overGroups : List (Finding α) :=
  a.tools.flatMap fun t =>
    (a.groups.filter fun g => t.rect.intersects g.rect).map fun g => .toolOverGroup t.id g.id

def isOf (d : Diagram α) : Bool :=
  d.nodes.map (·.id) == a.nodes.map (·.id) && a.boxes.length == a.nodes.length

def check (d : Diagram α) : List (Finding α) :=
  if a.isOf d then
    offGrid s a ++ overlaps a.topLevel ++ a.boxes.filterMap a.escape? ++ tooSmall s a ++
      a.overGroups
  else [.identityMismatch]

omit [Scalar α] in
theorem mem_groups {b : Box α} : b ∈ a.groups ↔ b ∈ a.boxes ∧ b.kind = .group := by
  simp [groups]

omit [Scalar α] in
theorem mem_tools {b : Box α} : b ∈ a.tools ↔ b ∈ a.boxes ∧ b.kind = .tool := by
  simp [tools]

theorem overGroups_nil :
    a.overGroups = [] ↔ ∀ t ∈ a.tools, ∀ g ∈ a.groups, t.rect.intersects g.rect = false := by
  simp [overGroups, List.flatMap_eq_nil_iff, List.filter_eq_nil_iff]

end Arrangement

end FlowCanvas
