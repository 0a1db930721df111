import FlowCanvas.Proofs.Arrangement.Group
import FlowCanvas.Proofs.Arrangement.Outcome
import FlowCanvas.Proofs.Tool.Clearance

/-! The boxes of an arrangement. The box of an element is found by its id, and it is the one that
the plan and the places of the tools give. Tools are placed once each, over no group and well away
from one another. -/

namespace FlowCanvas

namespace Diagram

open Plan (toolPlaces)

variable (s : LayoutSettings Rat) (d : Diagram Rat) {n : Node Rat}

theorem box?_of_element (hn : n ∈ d.elements) :
    (d.arrange s).box? n.id = some (Plan.outcome s d (true, n)).2 := by
  rw [arrange, Plan.arrangement_box?, node?_of_element hn, Option.map_some]
  rfl

theorem toolPlaces_ids : (toolPlaces s d).map (·.id) = (d.elements.filter (·.isTool)).map (·.id) :=
  (Plan.ofDiagram s d).scene.placeTools_ids s (Frames.build d) d.edges

theorem toolPlaces_nodup : ((toolPlaces s d).map (·.id)).Nodup := by
  rw [toolPlaces_ids]
  exact d.elements_nodup.sublist (List.filter_sublist.map _)

theorem toolPlaces_find {t : ToolPlace Rat} (ht : t ∈ toolPlaces s d) :
    (toolPlaces s d).find? (·.id == t.id) = some t := by
  cases hfind : (toolPlaces s d).find? (·.id == t.id) with
  | none => simpa using List.find?_eq_none.mp hfind t ht
  | some u =>
    have hid : u.id = t.id := by simpa using List.find?_some hfind
    have hu := List.mem_of_find?_eq_some hfind
    rw [List.inj_on_of_nodup_map (toolPlaces_nodup s d) hu ht hid]

theorem toolPlace_of_element (hn : n ∈ d.elements) (htool : n.isTool = true) :
    ∃ t ∈ toolPlaces s d, t.id = n.id := by
  have hmem : n.id ∈ (toolPlaces s d).map (·.id) := by
    rw [toolPlaces_ids]
    exact List.mem_map_of_mem (List.mem_filter.mpr ⟨hn, htool⟩)
  exact List.mem_map.mp hmem

theorem outcome_of_tool (htool : n.isTool = true) {t : ToolPlace Rat}
    (ht : t ∈ toolPlaces s d) (hid : t.id = n.id) :
    Plan.outcome s d (true, n) =
      ({ n with position := t.position }, ⟨n.id, n.kind, none, t.rect s⟩) := by
  have hfind := toolPlaces_find s d ht
  rw [hid] at hfind
  simp only [Plan.outcome, Plan.settle, Plan.placed, if_true, htool, hfind]
  rfl

theorem box?_of_toolPlace {t : ToolPlace Rat} (ht : t ∈ toolPlaces s d) :
    (d.arrange s).box? t.id = some ⟨t.id, .tool, none, t.rect s⟩ := by
  have hmem : t.id ∈ (d.elements.filter (·.isTool)).map (·.id) := by
    rw [← toolPlaces_ids s]
    exact List.mem_map_of_mem ht
  obtain ⟨n, hn, hid⟩ := List.mem_map.mp hmem
  obtain ⟨hn, htool⟩ := List.mem_filter.mp hn
  have hkind : n.kind = .tool := by simpa [Node.isTool] using htool
  rw [← hid, box?_of_element s d hn, outcome_of_tool s d htool ht hid.symm, hkind]

theorem rect_mem_groups {g : Node Rat} (hg : g ∈ d.elements) (hgroup : g.isGroup = true) :
    (Plan.ofDiagram s d).rect g ∈ (Plan.ofDiagram s d).scene.groups := by
  have hplain : g ∈ (Plan.ofDiagram s d).frames.elements.filter (!·.isTool) :=
    List.mem_filter.mpr ⟨hg, by simp [isTool_of_isGroup hgroup]⟩
  refine List.mem_map.mpr ⟨(g, (Plan.ofDiagram s d).rect g), ?_, rfl⟩
  exact List.mem_filter.mpr ⟨List.mem_map_of_mem hplain, hgroup⟩

theorem toolPlaces_off_groups (hgap : 0 ≤ s.tools.gap) {t : ToolPlace Rat}
    (ht : t ∈ toolPlaces s d) {g : Node Rat} (hg : g ∈ d.elements) (hgroup : g.isGroup = true) :
    (t.rect s).intersects ((Plan.ofDiagram s d).rect g) = false :=
  (Plan.ofDiagram s d).scene.settleAll_off_groups s hgap ht _ (rect_mem_groups s d hg hgroup)

theorem toolPlaces_pairwise (hgap : 0 ≤ s.tools.gap) (hsep : s.tools.separation ≤ s.tools.gap) :
    (toolPlaces s d).Pairwise fun t u =>
      (t.rect s).crowds (u.rect s) s.tools.separation = false :=
  ((Plan.ofDiagram s d).scene.settleAll_clear s hgap hsep _ []).2

/-- Every tool has one place, which is the place of its box. No two tools crowd each other, and no
tool stands over the box of a group. -/
theorem tools_clear (hgap : 0 ≤ s.tools.gap) (hsep : s.tools.separation ≤ s.tools.gap) :
    (toolPlaces s d).map (·.id) = (d.elements.filter (·.isTool)).map (·.id) ∧
      ((toolPlaces s d).map (·.id)).Nodup ∧
      (∀ t ∈ toolPlaces s d, (d.arrange s).box? t.id = some ⟨t.id, .tool, none, t.rect s⟩) ∧
      (∀ t ∈ toolPlaces s d, ∀ u ∈ toolPlaces s d, t ≠ u →
        (t.rect s).crowds (u.rect s) s.tools.separation = false) ∧
      ∀ t ∈ toolPlaces s d, ∀ g ∈ d.elements, g.isGroup = true →
        ∃ b, (d.arrange s).box? g.id = some b ∧ (t.rect s).intersects b.rect = false := by
  refine ⟨toolPlaces_ids s d, toolPlaces_nodup s d, fun t => box?_of_toolPlace s d, ?_, ?_⟩
  · have hsymm : Std.Symm fun t u : ToolPlace Rat =>
        (t.rect s).crowds (u.rect s) s.tools.separation = false :=
      ⟨fun t u h => by rw [Rect.crowds_comm, h]⟩
    intro t ht u hu htu
    exact List.Pairwise.forall (toolPlaces_pairwise s d hgap hsep) ht hu htu
  · intro t ht g hg hgroup
    have hbox := box?_of_element s d hg
    rw [Plan.outcome_box_of_plain s d (isTool_of_isGroup hgroup)] at hbox
    exact ⟨_, hbox, toolPlaces_off_groups s d hgap ht hg hgroup⟩

theorem tools_clear_standard :
    let s : LayoutSettings Rat := .standard
    let g : Node Rat := .new "g" .group
    let d : Diagram Rat := ⟨[.new "a" .tool, g, .new "b" .tool], []⟩
    (0 ≤ s.tools.gap ∧ s.tools.separation ≤ s.tools.gap ∧ g ∈ d.elements) ∧
      ∃ t u b, (t.id = "a" ∧ u.id = "b") ∧ toolPlaces s d = [t, u] ∧
        (d.arrange s).box? "g" = some b ∧
        (t.rect s).crowds (u.rect s) s.tools.separation = false ∧
        (t.rect s).intersects b.rect = false ∧ (u.rect s).intersects b.rect = false := by
  intro s g d
  have hgap : 0 ≤ s.tools.gap := by decide +kernel
  have hsep : s.tools.separation ≤ s.tools.gap := by decide +kernel
  have hg : g ∈ d.elements := by
    rw [elements_of_nodup (by decide)]
    simp [d]
  obtain ⟨hids, -, -, hclear, hgroups⟩ := tools_clear s d hgap hsep
  have hids : (toolPlaces s d).map (·.id) = ["a", "b"] := hids
  obtain ⟨t, ts, hts, ht, hrest⟩ := List.map_eq_cons_iff.mp hids
  obtain ⟨u, us, rfl, hu, hrest⟩ := List.map_eq_cons_iff.mp hrest
  obtain rfl := List.map_eq_nil_iff.mp hrest
  rw [hts] at hclear hgroups
  have hne : t ≠ u := by
    rintro rfl
    rw [ht] at hu
    exact absurd hu (by decide)
  obtain ⟨b, hbox, htb⟩ := hgroups t (by simp) g hg rfl
  obtain ⟨b', hbox', hub⟩ := hgroups u (by simp) g hg rfl
  obtain rfl : b = b' := Option.some.inj (hbox.symm.trans hbox')
  exact ⟨⟨hgap, hsep, hg⟩, t, u, b, ⟨ht, hu⟩, hts, hbox,
    hclear t (by simp) u (by simp) hne, htb, hub⟩

end Diagram

end FlowCanvas
