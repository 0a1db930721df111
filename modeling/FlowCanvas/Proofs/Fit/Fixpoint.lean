import FlowCanvas.Fit
import FlowCanvas.Proofs.Frame.Forest

/-! The fits of groups are a fixpoint. A group is fitted with the fits that were found before it,
and since inner groups come first these are the final ones of everything it holds. So each group has
the fit that its children give it in the end. -/

namespace FlowCanvas

variable {α : Type} [Scalar α]

theorem Fits.fit_congr (s : LayoutSettings α) {f : Frames α} {g : Node α} {a b : Fits α}
    (h : ∀ c ∈ f.children g.id, a.lookup c.id = b.lookup c.id) :
    fit s a f g = fit s b f g := by
  have hrect : (f.children g.id).map (childRect s a) = (f.children g.id).map (childRect s b) := by
    apply List.map_congr_left
    intro c hc
    simp only [childRect, moved, offset?, sizeOf, h c hc]
  rw [fit, fit, hrect]

namespace Frames

variable (f : Frames α) (s : LayoutSettings α)

def addFit (fits : Fits α) (g : Node α) : Fits α := (g.id, Fits.fit s fits f g) :: fits

theorem foldl_addFit_of_not_mem {gs : List (Node α)} {id : String} (h : id ∉ gs.map (·.id))
    (fits : Fits α) : (gs.foldl (addFit f s) fits).lookup id = fits.lookup id := by
  induction gs generalizing fits with
  | nil => rfl
  | cons g gs ih =>
    rw [List.map_cons, List.mem_cons, not_or] at h
    have hne : (id == g.id) = false := by simpa using h.1
    rw [List.foldl_cons, ih h.2, addFit, List.lookup_cons, hne]

theorem foldl_addFit_cons {g : Node α} {gs : List (Node α)} (h : g.id ∉ gs.map (·.id))
    (fits : Fits α) :
    ((g :: gs).foldl (addFit f s) fits).lookup g.id = some (Fits.fit s fits f g) := by
  rw [List.foldl_cons, foldl_addFit_of_not_mem f s h, addFit, List.lookup_cons_self]

omit [Scalar α] in
theorem groupsInward_sorted :
    f.groupsInward.Pairwise fun a b => f.depth b.id ≤ f.depth a.id := by
  let le (a b : Node α) : Bool := f.depth b.id ≤ f.depth a.id
  have htrans (a b c : Node α) (hab : le a b = true) (hbc : le b c = true) : le a c = true := by
    simp only [le, decide_eq_true_eq] at hab hbc ⊢
    exact Nat.le_trans hbc hab
  have htotal (a b : Node α) : (le a b || le b a) = true := by
    simpa [le] using Nat.le_total (f.depth b.id) (f.depth a.id)
  have hsorted := List.pairwise_mergeSort htrans htotal (f.elements.filter (·.isGroup))
  exact hsorted.imp (by simp [le])

variable {f} (hf : f.WellFormed)

include hf

omit [Scalar α] in
theorem groupsInward_nodup : (f.groupsInward.map (·.id)).Nodup := by
  have hperm : (f.groupsInward.map (·.id)).Perm ((f.elements.filter (·.isGroup)).map (·.id)) :=
    (List.mergeSort_perm _ _).map _
  exact hperm.nodup_iff.mpr (hf.nodup.sublist (List.filter_sublist.map _))

theorem fits_lookup {g : Node α} (hg : g ∈ f.elements) (hgroup : g.isGroup = true) :
    (f.fits s).lookup g.id = some (Fits.fit s (f.fits s) f g) := by
  have hmem : g ∈ f.groupsInward := f.mem_groupsInward.mpr ⟨hg, hgroup⟩
  obtain ⟨pre, post, hsplit⟩ := List.append_of_mem hmem
  have hnodup := groupsInward_nodup hf
  have hsorted := f.groupsInward_sorted
  rw [hsplit, List.map_append] at hnodup
  rw [hsplit] at hsorted
  have hgpost : g.id ∉ post.map (·.id) :=
    (List.nodup_cons.mp (List.nodup_append.mp hnodup).2.1).1
  -- What is fitted with `g` or after it is no deeper than `g`, so none of it is a child of `g`.
  have hlater : ∀ c ∈ f.children g.id, c.id ∉ (g :: post).map (·.id) := by
    intro c hc hid
    obtain ⟨m, hm, he⟩ := List.mem_map.mp hid
    have hdeeper := hf.depth_of_parent (mem_children f |>.mp hc).2
    have hle : f.depth m.id ≤ f.depth g.id := by
      rcases List.mem_cons.mp hm with rfl | hm
      · exact Nat.le_refl _
      · exact List.rel_of_pairwise_cons (List.pairwise_append.mp hsorted).2.1 hm
    rw [he, hdeeper] at hle
    omega
  have hfinal : f.fits s = (g :: post).foldl (addFit f s) (pre.foldl (addFit f s) []) := by
    rw [← List.foldl_append, ← hsplit]
    rfl
  rw [hfinal, foldl_addFit_cons f s hgpost]
  congr 1
  apply Fits.fit_congr s
  intro c hc
  rw [foldl_addFit_of_not_mem f s (hlater c hc)]

theorem fits_lookup_none {n : Node α} (hn : n ∈ f.elements) (hgroup : n.isGroup = false) :
    (f.fits s).lookup n.id = none := by
  have hnot : n.id ∉ f.groupsInward.map (·.id) := by
    intro hid
    obtain ⟨m, hm, he⟩ := List.mem_map.mp hid
    obtain ⟨hm, hmgroup⟩ := f.mem_groupsInward.mp hm
    rw [hf.eq_of_id hm hn he, hgroup] at hmgroup
    cases hmgroup
  exact foldl_addFit_of_not_mem f s hnot []

end Frames

end FlowCanvas
