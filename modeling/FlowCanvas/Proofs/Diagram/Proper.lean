import FlowCanvas.Proofs.Arrangement.Outcome
import FlowCanvas.Proofs.Diagram.Reread

/-! Diagrams that were read. Their ids are distinct, their kinds are known by their names, and what
they pass along has no known key. All of this stays so when they are arranged. -/

namespace FlowCanvas

theorem optional_cases {β : Type} {fs : List (String × Json)} {key : String} {default x : β}
    {read : Json → Option β} (h : optional fs key default read = some x) :
    x = default ∨ ∃ j, read j = some x := by
  rw [optional] at h
  split at h
  · exact .inl (Option.some.inj h).symm
  · exact .inr ⟨_, h⟩

theorem forall_of_mapM {β γ : Type} {P : γ → Prop} {read : β → Option γ}
    (hread : ∀ {x y}, read x = some y → P y) {xs : List β} {ys : List γ}
    (h : xs.mapM read = some ys) : ∀ y ∈ ys, P y := by
  induction xs generalizing ys with
  | nil =>
    cases h
    exact List.forall_mem_nil P
  | cons x xs ih =>
    simp only [List.mapM_cons, Option.bind_eq_bind, Option.bind_eq_some_iff, Option.pure_def,
      Option.some.injEq] at h
    obtain ⟨y, hy, ys, hys, rfl⟩ := h
    exact List.forall_mem_cons.mpr ⟨hread hy, ih hys⟩

theorem NodeKind.not_mem_reserved {s name : String} (h : ofName s = .other name) :
    name ∉ reserved := by
  unfold ofName at h
  split at h
  case h_4 hstep htool hgroup =>
    cases h
    simpa [reserved] using ⟨hstep, htool, hgroup⟩
  all_goals cases h

theorem EdgeKind.not_mem_reserved {s name : String} (h : ofName s = .other name) :
    name ∉ reserved := by
  unfold ofName at h
  split at h
  case h_3 hroute htool =>
    cases h
    simpa [reserved] using ⟨hroute, htool⟩
  all_goals cases h

theorem Style.passed_of_ofJson? {j : Json} {s : Style Float32} (h : ofJson? j = some s) :
    Passed keys s.extra.fields := by
  simp only [ofJson?, Option.bind_eq_some_iff, Option.map_eq_some_iff] at h
  obtain ⟨fs, -, width, -, height, -, rfl⟩ := h
  exact passed_unknown keys fs

theorem Node.proper_of_ofJson? {j : Json} {n : Node Float32} (h : ofJson? j = some n) :
    n.Proper := by
  simp only [ofJson?, Option.bind_eq_some_iff, Option.map_eq_some_iff] at h
  obtain ⟨fs, -, id, -, kind, hkind, parent, -, position, -, style, hstyle, rfl⟩ := h
  refine ⟨?_, ?_, passed_unknown keys fs⟩
  · rcases optional_cases hkind with rfl | ⟨j, hj⟩
    · intro name hname
      cases hname
    · obtain ⟨name, -, rfl⟩ := Option.map_eq_some_iff.mp hj
      exact fun _ hname => NodeKind.not_mem_reserved hname
  · rcases optional_cases hstyle with rfl | ⟨j, hj⟩
    · exact List.forall_mem_nil _
    · exact Style.passed_of_ofJson? hj

theorem Edge.proper_of_ofJson? {j : Json} {e : Edge} (h : ofJson? j = some e) : e.Proper := by
  simp only [ofJson?, Option.bind_eq_some_iff, Option.map_eq_some_iff] at h
  obtain ⟨fs, -, id, -, source, -, target, -, kind, hkind, rfl⟩ := h
  refine ⟨?_, passed_unknown keys fs⟩
  rcases optional_cases hkind with rfl | ⟨j, hj⟩
  · intro name hname
    cases hname
  · obtain ⟨name, -, rfl⟩ := Option.map_eq_some_iff.mp hj
    exact fun _ hname => EdgeKind.not_mem_reserved hname

namespace Diagram

theorem nodes_proper {j : Json} {ns : List (Node Float32)} (h : nodesOf? j = some ns) :
    ∀ n ∈ ns, n.Proper := by
  obtain ⟨js, -, hjs⟩ := Option.bind_eq_some_iff.mp h
  exact forall_of_mapM Node.proper_of_ofJson? hjs

theorem edges_proper {j : Json} {es : List Edge} (h : edgesOf? j = some es) :
    ∀ e ∈ es, e.Proper := by
  obtain ⟨js, -, hjs⟩ := Option.bind_eq_some_iff.mp h
  exact forall_of_mapM Edge.proper_of_ofJson? hjs

variable {d : Diagram Float32}

theorem lists_proper {j : Json} (h : listsOf? j = some d) :
    (∀ n ∈ d.nodes, n.Proper) ∧ ∀ e ∈ d.edges, e.Proper := by
  unfold listsOf? at h
  split at h
  · cases h
    exact ⟨List.forall_mem_nil _, List.forall_mem_nil _⟩
  · obtain ⟨nodes, hnodes, rfl⟩ := Option.map_eq_some_iff.mp h
    exact ⟨nodes_proper hnodes, List.forall_mem_nil _⟩
  · simp only [Option.bind_eq_some_iff, Option.map_eq_some_iff] at h
    obtain ⟨nodes, hnodes, edges, hedges, rfl⟩ := h
    exact ⟨nodes_proper hnodes, edges_proper hedges⟩
  · simp only [Option.bind_eq_some_iff, Option.map_eq_some_iff] at h
    obtain ⟨fs, -, nodes, hnodes, edges, hedges, rfl⟩ := h
    constructor
    · rcases optional_cases hnodes with rfl | ⟨j, hj⟩
      · exact List.forall_mem_nil _
      · exact nodes_proper hj
    · rcases optional_cases hedges with rfl | ⟨j, hj⟩
      · exact List.forall_mem_nil _
      · exact edges_proper hj

theorem elements_proper {j : Json} (h : ofJson? j = some d) :
    (∀ n ∈ d.nodes, n.Proper) ∧ ∀ e ∈ d.edges, e.Proper := by
  rcases Option.or_eq_some_iff.mp h with hlists | ⟨-, hbare⟩
  · exact lists_proper hlists
  · obtain ⟨nodes, hnodes, rfl⟩ := Option.map_eq_some_iff.mp hbare
    exact ⟨nodes_proper hnodes, List.forall_mem_nil _⟩

theorem document_shape {cs : List Char} (h : document cs = .ok d) : ∃ j, ofJson? j = some d := by
  have hstrict (h : strictDocument cs = .ok d) : ∃ j, ofJson? j = some d := by
    unfold strictDocument at h
    repeat' split at h
    all_goals cases h
    exact ⟨_, ‹_›⟩
  have hrelaxed (h : relaxedDocument cs = .ok d) : ∃ j, ofJson? j = some d := by
    unfold relaxedDocument at h
    repeat' split at h
    all_goals cases h
    exact ⟨_, ‹_›⟩
  unfold document at h
  split at h
  · rename_i hfirst
    cases h
    exact hstrict hfirst
  · split at h
    · rename_i hsecond
      cases h
      exact hrelaxed hsecond
    · split at h <;> cases h

theorem nodup_of_repeated? (h : d.repeated? = none) : (d.nodes.map (·.id)).Nodup := by
  have hfirst : ∀ m ∈ d.marked, m.1 = true := by
    rw [repeated?, Option.map_eq_none_iff, List.find?_eq_none] at h
    intro m hm
    simpa using h m hm
  have helements : d.elements = d.nodes := by
    rw [← d.marked_nodes, elements, ← List.filterMap_eq_map]
    refine List.filterMap_congr fun m hm => ?_
    exact if_pos (hfirst m hm)
  rw [← helements]
  exact d.elements_nodup

theorem proper_of_read {text : String} (h : read text = .ok d) : d.Proper := by
  unfold read at h
  split at h
  · cases h
  · split at h
    · cases h
    · rename_i hdocument
      split at h
      · cases h
      · rename_i hrepeated
        cases h
        obtain ⟨j, hj⟩ := document_shape hdocument
        obtain ⟨hnodes, hedges⟩ := elements_proper hj
        exact ⟨nodup_of_repeated? hrepeated, hnodes, hedges⟩

/-- What tells a node from others, and what joins an edge to its nodes. -/
def outline (d : Diagram Float32) :
    List (String × NodeKind × Option String) × List (String × String × String × EdgeKind) :=
  (d.nodes.map fun n => (n.id, n.kind, n.parent),
    d.edges.map fun e => (e.id, e.source, e.target, e.kind))

theorem outline_reread (d : Diagram Float32) : d.reread.outline = d.outline := by
  rw [outline, reread, List.map_map, List.map_map]
  rfl

theorem settle_keeps (p : Plan Float32) (tools : List (ToolPlace Float32))
    (m : Bool × Node Float32) :
    (p.settle tools m).1.kind = m.2.kind ∧ (p.settle tools m).1.parent = m.2.parent ∧
      (p.settle tools m).1.style.extra = m.2.style.extra ∧
      (p.settle tools m).1.extra = m.2.extra := by
  by_cases hgroup : m.2.isGroup = true ∧ m.1 = true
  · obtain ⟨first, n⟩ := m
    obtain ⟨hgroup, rfl⟩ := hgroup
    rw [p.settle_of_group tools hgroup]
    exact ⟨rfl, rfl, rfl, rfl⟩
  · rw [p.settle_of_other tools hgroup]
    exact ⟨rfl, rfl, rfl, rfl⟩

theorem outline_arrangement (p : Plan Float32) (d : Diagram Float32) :
    outline ⟨(p.arrangement d).nodes, d.edges⟩ = d.outline := by
  have hnodes : (p.arrangement d).nodes.map (fun n => (n.id, n.kind, n.parent)) =
      d.nodes.map fun n => (n.id, n.kind, n.parent) := by
    rw [p.arrangement_nodes, ← d.marked_nodes, List.map_map, List.map_map]
    refine List.map_congr_left fun m _ => ?_
    obtain ⟨hkind, hparent, -, -⟩ := settle_keeps p (p.tools d.edges) m
    rw [Function.comp_apply, Function.comp_apply, p.settle_node_id, hkind, hparent]
  rw [outline, hnodes, outline]

theorem Proper.arrangement (hd : d.Proper) (p : Plan Float32) :
    Proper ⟨(p.arrangement d).nodes, d.edges⟩ where
  ids := by
    have houtline := congrArg (fun o => o.1.map (·.1)) (outline_arrangement p d)
    simp only [outline, List.map_map] at houtline
    exact houtline ▸ hd.ids
  nodes := by
    intro n hn
    have hnode : n ∈ (p.arrangement d).nodes := hn
    rw [p.arrangement_nodes] at hnode
    obtain ⟨m, hm, rfl⟩ := List.mem_map.mp hnode
    have hproper := hd.nodes m.2 (d.marked_nodes ▸ List.mem_map_of_mem hm)
    obtain ⟨hkind, -, hstyle, hextra⟩ := settle_keeps p (p.tools d.edges) m
    exact ⟨hkind ▸ hproper.kind, hstyle ▸ hproper.style, hextra ▸ hproper.extra⟩
  edges := hd.edges

end Diagram

end FlowCanvas
