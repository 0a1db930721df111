import FlowCanvas.Proofs.Association
import FlowCanvas.Proofs.Frame.Forest

/-! Frames that mirror each other. No tool is in a group or holds anything, so what the other
elements are and how they are linked decides all that frames say of them. If these correspond under
a renaming of ids, then so do the groups above an element, the children of a group and the elements
that the flow arranges. -/

namespace FlowCanvas

variable {α : Type}

namespace Frames

def plain (f : Frames α) : List (Node α) := f.elements.filter (!·.isTool)

/-- The elements of `f'` that are no tools are those of `f`, changed, and so are the links between
them. A change may move an element that is in no group, and give it another style and other data. -/
structure Mirrors (r : String → String) (change : Node α → Node α) (f f' : Frames α) : Prop where
  injective : Function.Injective r
  plain : f'.plain = f.plain.map change
  links : f'.links = f.links.map (Prod.map r r)
  id : ∀ n ∈ f.plain, (change n).id = r n.id
  kind : ∀ n ∈ f.plain, (change n).kind = n.kind
  position : ∀ n ∈ f.plain, f.isGrouped n.id = true → (change n).position = n.position

variable {f f' : Frames α} {n : Node α} {r : String → String} {change : Node α → Node α}

theorem mem_plain : n ∈ f.plain ↔ n ∈ f.elements ∧ n.isTool = false := by
  simp [plain]

theorem mem_plain_of_mem_layered (h : n ∈ f.layered) : n ∈ f.plain := by
  obtain ⟨hn, htool, -⟩ := mem_layered.mp h
  exact mem_plain.mpr ⟨hn, htool⟩

theorem layered_eq_plain : f.layered = f.plain.filter fun n => !f.isGrouped n.id := by
  rw [layered, plain, List.filter_filter]
  apply List.filter_congr
  intro n _
  rw [Bool.and_comm]

theorem WellFormed.children_eq_plain (hf : f.WellFormed) (id : String) :
    f.children id = f.plain.filter fun n => f.parent? n.id == some id := by
  rw [children, plain, List.filter_filter]
  apply List.filter_congr
  intro n hn
  cases htool : n.isTool with
  | false => simp
  | true => simp [hf.parent?_of_tool hn htool]

theorem WellFormed.mem_plain_of_mem_children (hf : f.WellFormed) {id : String}
    (h : n ∈ f.children id) : n ∈ f.plain := by
  rw [hf.children_eq_plain] at h
  exact List.mem_of_mem_filter h

theorem climb_rename (hr : Function.Injective r) (links : List (String × String)) (k : Nat)
    (id : String) : climb (links.map (Prod.map r r)) k (r id) = (climb links k id).map r := by
  induction k generalizing id with
  | zero => rfl
  | succ k ih =>
    rw [climb, climb, lookup_rename hr]
    cases links.lookup id with
    | none => rfl
    | some p => exact congrArg (r p :: ·) (ih p)

theorem above_rename (hr : Function.Injective r) (links : List (String × String)) (id : String) :
    above (links.map (Prod.map r r)) (r id) = (above links id).map r := by
  rw [above, List.length_map, climb_rename hr, above]

namespace Mirrors

variable (h : Mirrors r change f f')

include h

theorem isTool (hn : n ∈ f.plain) : (change n).isTool = n.isTool := by
  rw [Node.isTool, h.kind n hn, Node.isTool]

theorem isGroup (hn : n ∈ f.plain) : (change n).isGroup = n.isGroup := by
  rw [Node.isGroup, h.kind n hn, Node.isGroup]

theorem mem (hn : n ∈ f.plain) : change n ∈ f'.plain := by
  rw [h.plain]
  exact List.mem_map_of_mem hn

theorem mem_elements (hn : n ∈ f.plain) : change n ∈ f'.elements := (mem_plain.mp (h.mem hn)).1

theorem parent? (id : String) : f'.parent? (r id) = (f.parent? id).map r := by
  rw [Frames.parent?, h.links, lookup_rename h.injective, Frames.parent?]

theorem isGrouped (id : String) : f'.isGrouped (r id) = f.isGrouped id := by
  rw [Frames.isGrouped, h.parent?, Option.isSome_map, Frames.isGrouped]

theorem ancestors (id : String) : f'.ancestors (r id) = (f.ancestors id).map r := by
  rw [Frames.ancestors, h.links, above_rename h.injective, Frames.ancestors]

theorem filter {p p' : Node α → Bool} (hp : ∀ n ∈ f.plain, p' (change n) = p n) :
    f'.plain.filter p' = (f.plain.filter p).map change := by
  rw [h.plain, List.filter_map]
  congr 1
  exact List.filter_congr hp

theorem layered : f'.layered = f.layered.map change := by
  rw [layered_eq_plain, layered_eq_plain]
  apply h.filter
  intro n hn
  rw [h.id n hn, h.isGrouped]

theorem layeredIds : f'.layered.map (·.id) = (f.layered.map (·.id)).map r := by
  rw [h.layered, List.map_map, List.map_map]
  exact List.map_congr_left fun n hn => h.id n (mem_plain_of_mem_layered hn)

theorem children (hf : f.WellFormed) (hf' : f'.WellFormed) (id : String) :
    f'.children (r id) = (f.children id).map change := by
  rw [hf.children_eq_plain, hf'.children_eq_plain]
  apply h.filter
  intro n hn
  rw [h.id n hn, h.parent?, Bool.eq_iff_iff, beq_iff_eq, beq_iff_eq]
  exact (Option.map_injective h.injective).eq_iff' rfl

theorem element? (hf' : f'.WellFormed) (hn : n ∈ f.plain) :
    f'.element? (r n.id) = some (change n) := by
  rw [← h.id n hn]
  exact hf'.element?_of_mem (h.mem_elements hn)

end Mirrors

end Frames

end FlowCanvas
