import FlowCanvas.Flow

/-!
The engine that is asked for. `Flow` is the layered one. The other, dagre, is a library's: its pass
takes the layered elements and the routes between them as a graph and leaves the nodes at points, or
it does not come back at all. So the pass is a parameter, as a function of the graph, and so is the
way in which it answers: where that is `Option`, a pass that does not come back is one without an
answer.
-/

namespace FlowCanvas

variable {α : Type} {m : Type → Type}

structure Dagre.Graph (α : Type) where
  direction : Direction
  nodeSpacing : α
  rankSpacing : α
  margin : α
  nodes : List (String × Size α)
  edges : List (String × String)

abbrev Dagre (m : Type → Type) (α : Type) := Dagre.Graph α → m (String → Option (Point α))

namespace Dagre

/-- A pass that has no points, for want of the library. -/
def idle [Monad m] : Dagre m α := fun _ => pure fun _ => none

def lift {n : Type → Type} [MonadLift n m] (dagre : Dagre n α) : Dagre m α :=
  fun graph => monadLift (dagre graph)

end Dagre

namespace Frames

variable [Scalar α] (f : Frames α) (s : LayoutSettings α) (edges : List Edge)
  (size : Node α → Size α)

def dagreGraph : Dagre.Graph α :=
  { direction := s.direction
    nodeSpacing := s.nodeSpacing
    rankSpacing := s.rankSpacing
    margin := s.margin
    nodes := f.layered.map fun n => (n.id, size n)
    edges := f.routes edges }

def points? (pointOf : String → Option (Point α)) : Option (List (Point α)) :=
  f.layeredIds.mapM fun id => (pointOf id).filter Point.isFinite

/-- The centres by dagre; where it leaves an element out, those by the layered engine. -/
def centersFrom (pointOf : String → Option (Point α)) : List (String × Point α) :=
  match f.points? pointOf with
  | some points => f.layeredIds.zip points
  | none => f.centers s edges size

def centersBy [Monad m] (dagre : Dagre m α) : m (List (String × Point α)) :=
  match s.engine with
  | .layered => pure (f.centers s edges size)
  | .dagre =>
    if f.layered.isEmpty then pure []
    else f.centersFrom s edges size <$> dagre (f.dagreGraph s edges size)

end Frames

end FlowCanvas
