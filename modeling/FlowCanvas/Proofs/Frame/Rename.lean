import Mathlib.Data.Prod.Basic
import FlowCanvas.Proofs.Flow.Edge
import FlowCanvas.Proofs.Frame.Mirror

/-! Renamed diagrams. If no two ids become one, then a node is the first of its id, names a group or
closes a cycle just as before, so the frames are the same under the new ids, and the routes join the
same slots. -/

namespace FlowCanvas

variable {α β γ : Type} [BEq β] [LawfulBEq β] [BEq γ] [LawfulBEq γ] {r : String → String}

theorem contains_rename {f : β → γ} (hf : Function.Injective f) (xs : List β) (x : β) :
    (xs.map f).contains (f x) = xs.contains x := by
  rw [Bool.eq_iff_iff, List.contains_iff_mem, List.contains_iff_mem,
    List.mem_map_of_injective hf]

theorem beq_rename {f : β → γ} (hf : Function.Injective f) (x y : β) :
    (f x == f y) = (x == y) := by
  rw [Bool.eq_iff_iff, beq_iff_eq, beq_iff_eq, hf.eq_iff]

theorem idxOf?_rename {f : β → γ} (hf : Function.Injective f) (xs : List β) (x : β) :
    (xs.map f).idxOf? (f x) = xs.idxOf? x := by
  rw [List.idxOf?, List.idxOf?, List.findIdx?_map]
  congr 1
  funext y
  exact beq_rename hf y x

theorem eraseDups_rename {f : β → γ} (hf : Function.Injective f) :
    ∀ xs : List β, (xs.map f).eraseDups = xs.eraseDups.map f
  | [] => rfl
  | x :: xs => by
    have hothers : (xs.map f).filter (fun y => !y == f x) =
        (xs.filter fun y => !y == x).map f := by
      rw [List.filter_map]
      congr 1
      exact List.filter_congr fun y _ => congrArg (!·) (beq_rename hf y x)
    have hlt : (xs.filter fun y => !y == x).length < xs.length + 1 :=
      Nat.lt_succ_of_le (List.length_filter_le _ _)
    rw [List.map_cons, List.eraseDups_cons, hothers, eraseDups_rename hf, List.eraseDups_cons,
      List.map_cons]
termination_by xs => xs.length

def Node.rename (r : String → String) (n : Node α) : Node α :=
  { n with
    id := r n.id
    parent := n.parent.map r }

def Edge.rename (r : String → String) (e : Edge) : Edge :=
  { e with
    source := r e.source
    target := r e.target }

def Diagram.rename (r : String → String) (d : Diagram α) : Diagram α :=
  ⟨d.nodes.map (Node.rename r), d.edges.map (Edge.rename r)⟩

def Frames.rename (r : String → String) (f : Frames α) : Frames α :=
  ⟨f.elements.map (Node.rename r), f.links.map (Prod.map r r)⟩

theorem Node.isTool_rename (n : Node α) : (n.rename r).isTool = n.isTool := rfl

theorem Node.isGroup_rename (n : Node α) : (n.rename r).isGroup = n.isGroup := rfl

section

variable (hr : Function.Injective r)

include hr

namespace Diagram

theorem mark_rename (seen : List String) (ns : List (Node α)) :
    mark (seen.map r) (ns.map (Node.rename r)) =
      (mark seen ns).map (Prod.map id (Node.rename r)) := by
  induction ns generalizing seen with
  | nil => rfl
  | cons n ns ih =>
    have hseen : (seen.map r).contains (n.rename r).id = seen.contains n.id :=
      contains_rename hr seen n.id
    have hrest : mark ((n.rename r).id :: seen.map r) (ns.map (Node.rename r)) =
        (mark (n.id :: seen) ns).map (Prod.map id (Node.rename r)) := ih (n.id :: seen)
    rw [List.map_cons, mark, hseen, hrest]
    rfl

theorem marked_rename (d : Diagram α) :
    (d.rename r).marked = d.marked.map (Prod.map id (Node.rename r)) :=
  mark_rename hr [] d.nodes

theorem elements_rename (d : Diagram α) :
    (d.rename r).elements = d.elements.map (Node.rename r) := by
  rw [elements, marked_rename hr, List.filterMap_map, elements, List.map_filterMap]
  apply List.filterMap_congr
  rintro ⟨first, n⟩ -
  cases first <;> rfl

end Diagram

namespace Frames

theorem find?_rename (elements : List (Node α)) (id : String) :
    find? (elements.map (Node.rename r)) (r id) = (find? elements id).map (Node.rename r) := by
  have hsame : ((fun m : Node α => m.id == r id) ∘ Node.rename r) = fun m => m.id == id :=
    funext fun m => beq_rename hr m.id id
  rw [find?, List.find?_map, hsame, find?]

theorem candidate?_rename (elements : List (Node α)) (n : Node α) :
    candidate? (elements.map (Node.rename r)) (n.rename r) = (candidate? elements n).map r := by
  rw [candidate?, candidate?, Node.isTool_rename]
  cases n.isTool with
  | true => rfl
  | false =>
    rw [Node.rename]
    cases n.parent with
    | none => rfl
    | some p =>
      rw [Option.map_some, Option.bind_some, Option.bind_some, find?_rename hr]
      cases find? elements p with
      | none => rfl
      | some m =>
        rw [Option.map_some, Option.bind_some, Option.bind_some, Node.isGroup_rename]
        cases m.isGroup <;> rfl

theorem closesCycle_rename (links : List (String × String)) (child group : String) :
    closesCycle (links.map (Prod.map r r)) (r child) (r group) = closesCycle links child group := by
  rw [closesCycle, above_rename hr, ← List.map_cons, contains_rename hr, closesCycle]

theorem keep_rename (elements : List (Node α)) (links : List (String × String)) (n : Node α) :
    keep (elements.map (Node.rename r)) (links.map (Prod.map r r)) (n.rename r) =
      (keep elements links n).map (Prod.map r r) := by
  rw [keep, candidate?_rename hr, keep]
  cases candidate? elements n with
  | none => rfl
  | some p =>
    have hcycle : closesCycle (links.map (Prod.map r r)) (n.rename r).id (r p) =
        closesCycle links n.id p := closesCycle_rename hr links n.id p
    simp only [Option.map_some, hcycle]
    cases closesCycle links n.id p <;> rfl

theorem build_rename (d : Diagram α) : build (d.rename r) = (build d).rename r := by
  -- the elements that are looked up stay the same while the links are decided one by one
  have hlinks (ns : List (Node α)) (links : List (String × String)) :
      (ns.map (Node.rename r)).foldl (keep (d.elements.map (Node.rename r)))
          (links.map (Prod.map r r)) =
        (ns.foldl (keep d.elements) links).map (Prod.map r r) := by
    induction ns generalizing links with
    | nil => rfl
    | cons n ns ih => rw [List.map_cons, List.foldl_cons, keep_rename hr, ih, List.foldl_cons]
  rw [build, Diagram.elements_rename hr]
  exact congrArg (Frames.mk _) (hlinks d.elements [])

variable (f : Frames α)

theorem mirrors_rename : Mirrors r (Node.rename r) f (f.rename r) where
  injective := hr
  plain := List.filter_map
  links := rfl
  id _ _ := rfl
  kind _ _ := rfl
  position _ _ _ := rfl

theorem element?_rename (id : String) :
    (f.rename r).element? (r id) = (f.element? id).map (Node.rename r) :=
  find?_rename hr f.elements id

theorem topLevel_rename (id : String) : (f.rename r).topLevel (r id) = r (f.topLevel id) := by
  rw [topLevel, (mirrors_rename hr f).ancestors, topLevel]
  cases f.ancestors id with
  | nil => rfl
  | cons p ps => exact List.getLastD_map

theorem layeredIds_rename : (f.rename r).layeredIds = f.layeredIds.map r :=
  (mirrors_rename hr f).layeredIds

omit hr in
theorem toolIds_rename : (f.rename r).tools.map (·.id) = (f.tools.map (·.id)).map r := by
  have htools : (f.rename r).tools = f.tools.map (Node.rename r) := List.filter_map
  rw [htools, List.map_map, List.map_map]
  rfl

theorem contracted?_rename (e : Edge) :
    (f.rename r).contracted? (e.rename r) = (f.contracted? e).map (Prod.map r r) := by
  have hsource : ((f.rename r).element? (e.rename r).source).isSome =
      (f.element? e.source).isSome := by
    rw [Edge.rename, element?_rename hr, Option.isSome_map]
  have htarget : ((f.rename r).element? (e.rename r).target).isSome =
      (f.element? e.target).isSome := by
    rw [Edge.rename, element?_rename hr, Option.isSome_map]
  rw [contracted?, contracted?, hsource, htarget, Edge.rename, topLevel_rename hr,
    topLevel_rename hr, apply_ite (Option.map (Prod.map r r))]
  rfl

theorem routes_rename (edges : List Edge) :
    (f.rename r).routes (edges.map (Edge.rename r)) = (f.routes edges).map (Prod.map r r) := by
  have hroute (e : Edge) :
      (f.rename r).route? (e.rename r) = (f.route? e).map (Prod.map r r) := by
    rw [route?, contracted?_rename hr, layeredIds_rename hr, route?]
    cases f.contracted? e with
    | none => rfl
    | some p =>
      simp only [Option.map_some, Option.filter_some, Prod.map, contains_rename hr, bne,
        beq_rename hr]
      split <;> rfl
  rw [routes_eq, List.filterMap_map, routes_eq, ← eraseDups_rename (hr.prodMap hr),
    List.map_filterMap]
  congr 1
  exact List.filterMap_congr fun e _ => hroute e

theorem slotRoutes_rename (edges : List Edge) :
    (f.rename r).slotRoutes (edges.map (Edge.rename r)) = f.slotRoutes edges := by
  rw [slotRoutes, layeredIds_rename hr, routes_rename hr, slotRoutes, List.filterMap_map]
  apply List.filterMap_congr
  rintro ⟨a, b⟩ -
  simp only [Function.comp_apply, Prod.map, idxOf?_rename hr]

end Frames

end

end FlowCanvas
