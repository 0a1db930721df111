import Mathlib.Logic.Relation
import Mathlib.Order.WellFounded
import FlowCanvas.Layer.Graph

/-! Walks along edges. An edge list leads from one end to another if a walk of at least one edge
joins them; it is acyclic if nothing leads back to itself. -/

namespace FlowCanvas

variable {β : Type} {edges more : List (β × β)} {a b c : β}

def Leads (edges : List (β × β)) : β → β → Prop := Relation.TransGen fun a b => (a, b) ∈ edges

def Acyclic (edges : List (β × β)) : Prop := ∀ a, ¬ Leads edges a a

theorem Leads.edge (h : (a, b) ∈ edges) : Leads edges a b := .single h

theorem Leads.trans (h : Leads edges a b) (h' : Leads edges b c) : Leads edges a c :=
  Relation.TransGen.trans h h'

theorem Leads.mono (hsub : ∀ e ∈ edges, e ∈ more) (h : Leads edges a b) : Leads more a b :=
  Relation.TransGen.mono (fun _ _ he => hsub _ he) _ _ h

theorem Acyclic.mono (hsub : ∀ e ∈ more, e ∈ edges) (h : Acyclic edges) : Acyclic more :=
  fun a ha => h a (ha.mono hsub)

theorem Leads.lt {rank : β → Nat} (hedges : ∀ a b, (a, b) ∈ edges → rank a < rank b)
    (h : Leads edges a b) : rank a < rank b := by
  induction h with
  | single h => exact hedges _ _ h
  | tail _ h ih => exact Nat.lt_trans ih (hedges _ _ h)

theorem acyclic_of_lt (rank : β → Nat) (hedges : ∀ a b, (a, b) ∈ edges → rank a < rank b) :
    Acyclic edges := fun _ ha => Nat.lt_irrefl _ (ha.lt hedges)

theorem acyclic_of_acc (h : ∀ a, Acc (fun b a => (a, b) ∈ edges) a) : Acyclic edges := by
  intro a ha
  have hswap : Relation.TransGen (fun b a => (a, b) ∈ edges) a a :=
    Relation.transGen_swap.mp ha
  exact (WellFounded.intro h).transGen.irrefl.irrefl a hswap

namespace LayerGraph

theorem mem_ofEdges {size : Nat} {es : List (Nat × Nat)} {e : Nat × Nat} :
    e ∈ (ofEdges size es).edges ↔ e ∈ es ∧ e.1 < size ∧ e.2 < size ∧ e.1 ≠ e.2 := by
  have hfold : ∀ g : LayerGraph, e ∈ (es.foldl add g).edges ↔
      e ∈ g.edges ∨ (e ∈ es ∧ e.1 < g.size ∧ e.2 < g.size ∧ e.1 ≠ e.2) := by
    induction es with
    | nil => simp
    | cons a es ih =>
      intro g
      rw [List.foldl_cons, ih, add_size, mem_add, List.mem_cons]
      constructor
      · rintro ((h | ⟨rfl, h⟩) | ⟨h, hv⟩)
        · exact Or.inl h
        · exact Or.inr ⟨Or.inl rfl, h⟩
        · exact Or.inr ⟨Or.inr h, hv⟩
      · rintro (h | ⟨rfl | h, hv⟩)
        · exact Or.inl (Or.inl h)
        · exact Or.inl (Or.inr ⟨rfl, hv⟩)
        · exact Or.inr ⟨h, hv⟩
  rw [ofEdges, hfold]
  simp [empty]

end LayerGraph

end FlowCanvas
