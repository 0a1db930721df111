import FlowCanvas.Flow
import FlowCanvas.Proofs.Association
import FlowCanvas.Proofs.Frame.Forest

/-! Routes and slots. The ends of a route are layered elements, each of which has one slot, so the
edges between slots are the routes. -/

namespace FlowCanvas

namespace Frames

variable {α : Type} {f : Frames α} {edges : List Edge} {i j : Nat} {a b : String}

theorem route_slots (h : (a, b) ∈ f.routes edges) :
    ∃ i j : Nat, f.layeredIds[i]? = some a ∧ f.layeredIds[j]? = some b ∧ i ≠ j := by
  obtain ⟨-, ha, hb, hab⟩ := f.mem_routes.mp h
  obtain ⟨i, hi⟩ := List.mem_iff_getElem?.mp ha
  obtain ⟨j, hj⟩ := List.mem_iff_getElem?.mp hb
  refine ⟨i, j, hi, hj, ?_⟩
  rintro rfl
  exact hab (Option.some.inj (hi.symm.trans hj))

theorem mem_slotRoutes (hf : f.WellFormed) : (i, j) ∈ f.slotRoutes edges ↔
    ∃ a b, (a, b) ∈ f.routes edges ∧ f.layeredIds[i]? = some a ∧ f.layeredIds[j]? = some b := by
  have hn : f.layeredIds.Nodup := hf.layered_nodup
  simp only [slotRoutes, List.mem_filterMap, Prod.exists, Option.bind_eq_some_iff,
    Option.map_eq_some_iff, Prod.mk.injEq, idxOf?_eq_some_iff_of_nodup hn]
  constructor
  · rintro ⟨a, b, hab, i, hi, j, hj, rfl, rfl⟩
    exact ⟨a, b, hab, hi, hj⟩
  · rintro ⟨a, b, hab, hi, hj⟩
    exact ⟨a, b, hab, i, hi, j, hj, rfl, rfl⟩

end Frames

end FlowCanvas
