import FlowCanvas.Proofs.Arrangement.Mirror
import FlowCanvas.Proofs.Arrangement.Outcome
import FlowCanvas.Proofs.Frame.Index
import FlowCanvas.Proofs.Flow.Edge
import FlowCanvas.Proofs.Tool.Turn

/-! Taking a tool away. A tool holds nothing, joins no layers and is no anchor, so without it and
with other edges at it the links, the routes and the scene are the same ones. What goes before it in
the order of the nodes stays, and so does everything that is no tool. -/

namespace FlowCanvas

variable {α : Type}

namespace Diagram

open Frames

/-- `d'` is `d` without the tool `t` between `as` and `bs`, and perhaps with other edges at it. -/
structure Drops (t : Node α) (as bs : List (Node α)) (d d' : Diagram α) : Prop where
  tool : t.isTool = true
  elements : d.elements = as ++ t :: bs
  elements' : d'.elements = as ++ bs
  edges : d'.edges.filter (!·.touches t.id) = d.edges.filter (!·.touches t.id)

namespace Drops

variable {d d' : Diagram α} {t n : Node α} {as bs : List (Node α)} {key tool : String} {e : Edge}
  (h : Drops t as bs d d')

include h

theorem mem : t ∈ d.elements := by
  rw [h.elements]
  exact List.mem_append_right as List.mem_cons_self

theorem ne_of_mem (hn : n ∈ as ++ bs) : n.id ≠ t.id := by
  have hnodup := d.elements_nodup
  rw [h.elements, List.map_append, List.map_cons, List.nodup_middle, ← List.map_append,
    List.nodup_cons] at hnodup
  intro hid
  exact hnodup.1 (hid ▸ List.mem_map_of_mem hn)

theorem element?_tool : (build d).element? t.id = some t :=
  (build_wellFormed d).element?_of_mem h.mem

theorem element?_dropped : (build d').element? t.id = none := by
  rw [element?, find?, List.find?_eq_none]
  intro n hn
  change n ∈ d'.elements at hn
  rw [h.elements'] at hn
  simpa using h.ne_of_mem hn

theorem element?_other (hkey : key ≠ t.id) :
    (build d').element? key = (build d).element? key := by
  have hne : (t.id == key) = false := by simpa using hkey.symm
  rw [element?, element?, build, build, find?, find?, h.elements, h.elements', List.find?_append,
    List.find?_append, List.find?_cons, hne]

theorem candidate?_eq (n : Node α) : candidate? d'.elements n = candidate? d.elements n := by
  have hgroup (p : String) :
      ((find? d'.elements p).bind fun m => if m.isGroup then some p else none) =
        (find? d.elements p).bind fun m => if m.isGroup then some p else none := by
    by_cases hp : p = t.id
    · have hgone : find? d'.elements t.id = none := h.element?_dropped
      have hfound : find? d.elements t.id = some t := h.element?_tool
      rw [hp, hgone, hfound, Option.bind_some, isGroup_of_isTool h.tool]
      rfl
    · have hsame : find? d'.elements p = find? d.elements p := h.element?_other hp
      rw [hsame]
  simp only [candidate?, hgroup]

theorem links : (build d').links = (build d).links := by
  have hkeep : keep d'.elements = keep d.elements := by
    funext links n
    rw [keep, h.candidate?_eq, keep]
  have htool : candidate? d.elements t = none := by
    rw [candidate?, if_pos h.tool]
  have hskip (links : List (String × String)) : keep d.elements links t = links := by
    rw [keep, htool]
  have hfold (k : List (String × String) → Node α → List (String × String))
      (hk : ∀ links, k links t = links) : d'.elements.foldl k [] = d.elements.foldl k [] := by
    rw [h.elements', h.elements, List.foldl_append, List.foldl_append, List.foldl_cons, hk]
  rw [build, build, hkeep, hfold _ hskip]

theorem plain : (build d').plain = (build d).plain := by
  rw [Frames.plain, Frames.plain, build, build]
  dsimp only
  rw [h.elements', h.elements, List.filter_append, List.filter_append,
    List.filter_cons_of_neg (by simp [h.tool])]

theorem mirrors : Mirrors id id (build d) (build d') where
  injective := Function.injective_id
  plain := by rw [h.plain, List.map_id]
  links := by rw [h.links, Prod.map_id, List.map_id]
  id _ _ := rfl
  kind _ _ := rfl
  position _ _ _ := rfl

theorem topLevel_eq (key : String) : (build d').topLevel key = (build d).topLevel key := by
  rw [topLevel, ancestors, h.links, topLevel, ancestors]

theorem layered_eq : (build d').layered = (build d).layered := by
  rw [h.mirrors.layered, List.map_id]

theorem layeredIds_eq : (build d').layeredIds = (build d).layeredIds := by
  rw [layeredIds, h.layered_eq, layeredIds]

theorem not_layered : t.id ∉ (build d).layeredIds := by
  intro hid
  obtain ⟨n, hn, he⟩ := List.mem_map.mp hid
  obtain ⟨hmem, hplain, -⟩ := mem_layered.mp hn
  rw [(build_wellFormed d).eq_of_id hmem h.mem he, h.tool] at hplain
  cases hplain

theorem route?_touching (he : e.touches t.id = true) : (build d).route? e = none := by
  have htop : (build d).topLevel t.id = t.id :=
    topLevel_of_free ((build_wellFormed d).parent?_of_tool h.mem h.tool)
  rw [route?, contracted?]
  split
  · rcases Edge.touches_eq_true.mp he with he | he
    · simp [he, htop, h.not_layered]
    · simp [he, htop, h.not_layered]
  · rfl

theorem route?_eq (e : Edge) : (build d').route? e = (build d).route? e := by
  cases he : e.touches t.id with
  | true =>
    rw [h.route?_touching he]
    have hgone : ¬ (e.kind = .route ∧ ((build d').element? e.source).isSome = true ∧
        ((build d').element? e.target).isSome = true) := by
      rintro ⟨-, hsource, htarget⟩
      rcases Edge.touches_eq_true.mp he with he | he
      · simp [he, h.element?_dropped] at hsource
      · simp [he, h.element?_dropped] at htarget
    rw [route?, contracted?, if_neg hgone]
    rfl
  | false =>
    rw [Edge.touches_eq_false] at he
    simp only [route?, contracted?, h.element?_other he.1, h.element?_other he.2, h.topLevel_eq,
      h.layeredIds_eq]

theorem slotRoutes_eq : (build d').slotRoutes d'.edges = (build d).slotRoutes d.edges := by
  have hroutes : (build d').routes d'.edges = (build d).routes d.edges := by
    have hroute : (build d').route? = (build d).route? := funext h.route?_eq
    rw [routes_eq, hroute, ← routes_eq]
    refine (build d).routes_of_filter_eq (fun e he => h.route?_touching ?_) h.edges
    simpa using he
  rw [slotRoutes, h.layeredIds_eq, hroutes, slotRoutes]

section Anchor

variable (scene : Scene α) (htool : tool ≠ t.id)

include htool

theorem anchorBy?_touching (he : e.touches t.id = true) :
    scene.anchorBy? (build d) tool e = none := by
  rw [Scene.anchorBy?]
  split
  · rename_i hkind
    have hsource : e.source = t.id := by
      rcases Edge.touches_eq_true.mp he with he | he
      · exact he
      · exact absurd (hkind.2.symm.trans he) htool
    rw [hsource, h.element?_tool, Option.bind_some, h.tool, Bool.true_or, if_pos rfl]
  · rfl

theorem anchorBy?_eq (e : Edge) :
    scene.anchorBy? (build d') tool e = scene.anchorBy? (build d) tool e := by
  by_cases hsource : e.source = t.id
  · have he : e.touches t.id = true := Edge.touches_eq_true.mpr (.inl hsource)
    rw [h.anchorBy?_touching scene htool he, Scene.anchorBy?, hsource, h.element?_dropped,
      Option.bind_none, ite_self]
  · rw [Scene.anchorBy?, h.element?_other hsource, Scene.anchorBy?]

theorem anchor?_eq :
    scene.anchor? (build d') d'.edges tool = scene.anchor? (build d) d.edges tool := by
  have hby : scene.anchorBy? (build d') tool = scene.anchorBy? (build d) tool :=
    funext (h.anchorBy?_eq scene htool)
  rw [Scene.anchor?_eq, hby, ← Scene.anchor?_eq]
  refine scene.anchor?_of_filter_eq (build d) tool
    (fun e he => h.anchorBy?_touching scene htool ?_) h.edges
  simpa using he

end Anchor

variable [Scalar α] (s : LayoutSettings α)

theorem scene_eq : (Plan.ofDiagram s d').scene = (Plan.ofDiagram s d).scene := by
  rw [Plan.scene_mirrored h.mirrors s h.slotRoutes_eq, Scene.rename_id]

theorem toolPlaces_find (hn : n ∈ as) (htool : n.isTool = true) :
    (Plan.toolPlaces s d').find? (·.id == n.id) = (Plan.toolPlaces s d).find? (·.id == n.id) := by
  have hids : (build d).tools.map (·.id) =
      (as.filter (·.isTool)).map (·.id) ++ ((t :: bs).filter (·.isTool)).map (·.id) := by
    rw [tools, build, h.elements, List.filter_append, List.map_append]
  have hids' : (build d').tools.map (·.id) =
      (as.filter (·.isTool)).map (·.id) ++ (bs.filter (·.isTool)).map (·.id) := by
    rw [tools, build, h.elements', List.filter_append, List.map_append]
  have hmem : n.id ∈ (as.filter (·.isTool)).map (·.id) :=
    List.mem_map_of_mem (List.mem_filter.mpr ⟨hn, htool⟩)
  have hanchor : ∀ tool ∈ (as.filter (·.isTool)).map (·.id),
      (Plan.ofDiagram s d).scene.anchor? (build d') d'.edges tool =
        (Plan.ofDiagram s d).scene.anchor? (build d) d.edges tool := by
    intro tool hkey
    obtain ⟨m, hm, rfl⟩ := List.mem_map.mp hkey
    exact h.anchor?_eq _ (h.ne_of_mem (List.mem_append_left bs (List.mem_of_mem_filter hm)))
  rw [Plan.toolPlaces, h.scene_eq, Scene.find?_placeTools _ s _ _ hids' hmem, Plan.toolPlaces,
    Scene.find?_placeTools _ s _ _ hids hmem, Scene.placesOf,
    Scene.seats_congr _ s hanchor, Scene.placesOf]

theorem placed_plain (hn : n ∈ (build d).plain) (places places' : List (ToolPlace α)) :
    (Plan.ofDiagram s d').placed places' n = (Plan.ofDiagram s d).placed places n := by
  have hplaced := Plan.placed_mirrored h.mirrors s h.slotRoutes_eq hn places'
  rw [id_eq, Option.map_id_fun, id_eq, id_eq] at hplaced
  rw [hplaced, Plan.placed, (mem_plain.mp hn).2]
  rfl

theorem outcome_eq {m : Bool × Node α}
    (hm : m.1 = true → m.2 ∈ as ∨ (m.2 ∈ bs ∧ m.2.isTool = false)) :
    Plan.outcome s d' m = Plan.outcome s d m := by
  obtain ⟨first, n⟩ := m
  cases first with
  | false =>
    rw [Plan.outcome_of_copy, Plan.outcome_of_copy, Plan.spare, Plan.spare,
      Plan.ofDiagram_settings, Plan.ofDiagram_settings]
  | true =>
    rw [Plan.outcome_of_first, Plan.outcome_of_first]
    have hmem : n ∈ d.elements := by
      rw [h.elements, List.mem_append]
      exact (hm rfl).imp_right fun hbs => List.mem_cons_of_mem t hbs.1
    cases htool : n.isTool with
    | false => exact h.placed_plain s (mem_plain.mpr ⟨hmem, htool⟩) _ _
    | true =>
      have hn : n ∈ as := by
        rcases hm rfl with hn | ⟨-, hplain⟩
        · exact hn
        · rw [htool] at hplain
          cases hplain
      rw [Plan.placed, Plan.placed, if_pos htool, if_pos htool, h.toolPlaces_find s hn htool,
        Plan.ofDiagram_settings, Plan.ofDiagram_settings]

end Drops

section Nodes

variable {d d' : Diagram α} {t n : Node α} {before after : List (Node α)}

theorem getElem?_around {β : Type} (xs ys : List β) (y : β) (j : Nat) :
    (xs ++ y :: ys)[if j < xs.length then j else j + 1]? = (xs ++ ys)[j]? := by
  split
  · rename_i hj
    rw [List.getElem?_append_left hj, List.getElem?_append_left hj]
  · rename_i hj
    have hle := Nat.le_of_not_lt hj
    rw [List.getElem?_append_right (Nat.le_succ_of_le hle), List.getElem?_append_right hle,
      Nat.succ_sub hle, List.getElem?_cons_succ]

theorem marked_without (hnodes : d.nodes = before ++ t :: after)
    (hnodes' : d'.nodes = before ++ after) (honce : ∀ n ∈ before ++ after, n.id ≠ t.id) :
    ∃ ms ns, d.marked = ms ++ (true, t) :: ns ∧ d'.marked = ms ++ ns ∧
      ms.length = before.length := by
  let seen := (before.map (·.id)).reverse
  have hfresh : seen.contains t.id = false := by
    simpa [seen] using fun n hn => honce n (List.mem_append_left after hn)
  have hrest : mark (t.id :: seen) after = mark seen after := by
    apply mark_congr
    intro n hn
    rw [List.mem_cons, or_iff_right (honce n (List.mem_append_right before hn))]
  refine ⟨mark [] before, mark seen after, ?_, ?_, ?_⟩
  · rw [marked, hnodes, mark_append, List.append_nil, mark, hrest]
    change _ ++ (!seen.contains t.id, t) :: _ = _
    rw [hfresh, Bool.not_false]
  · rw [marked, hnodes', mark_append, List.append_nil]
  · exact marked_length ⟨before, []⟩

theorem drops_of_marks {ms ns : List (Bool × Node α)} (hd : d.marked = ms ++ (true, t) :: ns)
    (hd' : d'.marked = ms ++ ns) (htool : t.isTool = true)
    (hedges : d'.edges.filter (!·.touches t.id) = d.edges.filter (!·.touches t.id)) :
    Drops t (firsts ms) (firsts ns) d d' where
  tool := htool
  elements := by
    rw [elements, hd, List.filterMap_append, List.filterMap_cons]
    rfl
  elements' := by
    rw [elements, hd', List.filterMap_append]
    rfl
  edges := hedges

variable [Scalar α] (s : LayoutSettings α)

/-- Without a tool, and with any other edges at its id, what stood before it and all that is no tool
stay as they were: nodes have the same positions and sizes, and the same boxes. -/
theorem arrange_without_tool (hnodes : d.nodes = before ++ t :: after)
    (hnodes' : d'.nodes = before ++ after) (honce : ∀ n ∈ before ++ after, n.id ≠ t.id)
    (htool : t.isTool = true)
    (hedges : d'.edges.filter (!·.touches t.id) = d.edges.filter (!·.touches t.id))
    {j : Nat} (hn : d'.nodes[j]? = some n) (hstays : j < before.length ∨ n.isTool = false) :
    ∃ m b, (d'.arrange s).nodes[j]? = some m ∧ (d'.arrange s).boxes[j]? = some b ∧
      (d.arrange s).nodes[if j < before.length then j else j + 1]? = some m ∧
      (d.arrange s).boxes[if j < before.length then j else j + 1]? = some b := by
  obtain ⟨ms, ns, hd, hd', hlength⟩ := marked_without hnodes hnodes' honce
  obtain ⟨first, hmark', -⟩ := marked_of_node hn
  rw [← hlength] at hstays ⊢
  have hmark : d.marked[if j < ms.length then j else j + 1]? = some (first, n) := by
    rw [hd, getElem?_around, ← hd', hmark']
  have hsame : Plan.outcome s d' (first, n) = Plan.outcome s d (first, n) := by
    apply (drops_of_marks hd hd' htool hedges).outcome_eq
    intro hfirst
    rw [mem_firsts, mem_firsts]
    obtain rfl : first = true := hfirst
    rw [hd'] at hmark'
    by_cases hj : j < ms.length
    · rw [List.getElem?_append_left hj] at hmark'
      exact .inl (List.mem_of_getElem? hmark')
    · rw [List.getElem?_append_right (Nat.le_of_not_lt hj)] at hmark'
      exact .inr ⟨List.mem_of_getElem? hmark', hstays.resolve_left hj⟩
  refine ⟨_, _, node_outcome s d' hmark', box_outcome s d' hmark', ?_, ?_⟩
  · rw [hsame]
    exact node_outcome s d hmark
  · rw [hsame]
    exact box_outcome s d hmark

theorem arrange_without_tool_wired :
    let s : LayoutSettings Rat := .standard
    let b : Node Rat := { Node.new "b" .step with parent := some "t" }
    let at_t : List Edge := [.new "a" "t" .tool, .new "t" "b" .route, .new "t" "u" .tool]
    let d : Diagram Rat := ⟨[.new "a" .step, .new "t" .tool, b, .new "u" .tool],
      .new "a" "b" .route :: at_t⟩
    let d' : Diagram Rat := ⟨[.new "a" .step, b, .new "u" .tool], [.new "a" "b" .route]⟩
    ∃ m, (d'.arrange s).nodes[1]? = some m ∧ (d.arrange s).nodes[2]? = some m := by
  intro s b at_t d d'
  let before : List (Node Rat) := [.new "a" .step]
  let after : List (Node Rat) := [b, .new "u" .tool]
  have hnodes : d.nodes = before ++ .new "t" .tool :: after := rfl
  have hnodes' : d'.nodes = before ++ after := rfl
  have hn : d'.nodes[1]? = some b := rfl
  obtain ⟨m, _, hm', -, hm, -⟩ := arrange_without_tool s hnodes hnodes' (by decide) rfl rfl hn
    (.inr rfl)
  exact ⟨m, hm', hm⟩

end Nodes

end Diagram

end FlowCanvas
