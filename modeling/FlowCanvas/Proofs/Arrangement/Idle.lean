import Mathlib.Data.List.Induction
import FlowCanvas.Proofs.Arrangement.Mirror
import FlowCanvas.Proofs.Arrangement.Outcome
import FlowCanvas.Proofs.Flow.Edge
import FlowCanvas.Proofs.Tool.Turn

/-! Edges that do nothing. The arrangement looks at the edges for the routes and for the anchors of
tools, and it takes them in one at a time. An edge that adds neither to those before it may be left
out, and so may any number of them together. -/

namespace FlowCanvas

variable {α β γ : Type}

def omitAt (out : Nat → Bool) (xs : List β) : List β :=
  (xs.zipIdx.filter fun x => !out x.2).map (·.1)

theorem omitAt_concat (out : Nat → Bool) (xs : List β) (x : β) :
    omitAt out (xs ++ [x]) = omitAt out xs ++ if out xs.length then [] else [x] := by
  rw [omitAt, List.zipIdx_append, List.filter_append, List.map_append, omitAt, Nat.zero_add]
  cases hout : out xs.length with
  | true => simp [hout]
  | false => simp [hout]

theorem view_omitAt (view : List β → γ) {out : Nat → Bool} {xs : List β}
    (hstep : ∀ {ys zs : List β} (x : β), view ys = view zs → view (ys ++ [x]) = view (zs ++ [x]))
    (hidle : ∀ (i : Nat) (x : β), xs[i]? = some x → out i = true →
      view (xs.take i ++ [x]) = view (xs.take i)) :
    view (omitAt out xs) = view xs := by
  induction xs using List.reverseRecOn with
  | nil => rfl
  | append_singleton xs x ih =>
    have hinit : view (omitAt out xs) = view xs := by
      refine ih fun i y hi hout => ?_
      have hlt : i < xs.length := (List.getElem?_eq_some_iff.mp hi).1
      have hy := hidle i y (by rw [List.getElem?_append_left hlt, hi]) hout
      rwa [List.take_append_of_le_length (Nat.le_of_lt hlt)] at hy
    rw [omitAt_concat]
    cases hout : out xs.length with
    | true =>
      have hx := hidle xs.length x List.getElem?_concat_length hout
      rw [List.take_left] at hx
      rw [if_pos rfl, List.append_nil, hinit, hx]
    | false =>
      rw [if_neg Bool.false_ne_true]
      exact hstep x hinit

theorem filterMap_concat (g : β → Option γ) (xs : List β) (x : β) :
    (xs ++ [x]).filterMap g = xs.filterMap g ++ (g x).toList := by
  rw [List.filterMap_append]
  cases h : g x with
  | none => simp [h]
  | some y => simp [h]

namespace Frames

variable (f : Frames α) (edges : List Edge) {e : Edge}

theorem routes_concat (e : Edge) : f.routes (edges ++ [e]) =
    f.routes edges ++ ((f.route? e).toList.removeAll (f.routes edges)).eraseDups := by
  have hseen : ∀ xs : List (String × String),
      xs.removeAll (edges.filterMap f.route?) = xs.removeAll (f.routes edges) := by
    intro xs
    rw [routes_eq]
    refine List.filter_congr fun p _ => ?_
    rw [Bool.eq_iff_iff]
    simp
  rw [routes_eq, filterMap_concat, List.eraseDups_append, hseen, ← routes_eq]

theorem routes_concat_idle
    (h : f.route? e = none ∨ ∃ e' ∈ edges, f.route? e' = f.route? e) :
    f.routes (edges ++ [e]) = f.routes edges := by
  rw [routes_concat]
  cases hp : f.route? e with
  | none => simp
  | some p =>
    have hmem : p ∈ f.routes edges := by
      obtain ⟨e', he', hsame⟩ := h.resolve_left (by rw [hp]; exact Option.some_ne_none p)
      rw [routes_eq, List.mem_eraseDups, List.mem_filterMap]
      exact ⟨e', he', hsame.trans hp⟩
    simp [List.removeAll, hmem]

end Frames

namespace Scene

variable (scene : Scene α) (f : Frames α) (tool : String) (edges : List Edge) {e : Edge}

theorem anchor?_concat (e : Edge) : scene.anchor? f (edges ++ [e]) tool =
    (scene.anchor? f edges tool).or (scene.anchorBy? f tool e) := by
  rw [anchor?_eq, anchor?_eq, filterMap_concat, List.head?_append, Option.head?_toList]

theorem anchor?_concat_idle
    (h : scene.anchorBy? f tool e = none ∨ ∃ e' ∈ edges, (scene.anchorBy? f tool e').isSome) :
    scene.anchor? f (edges ++ [e]) tool = scene.anchor? f edges tool := by
  rw [anchor?_concat]
  rcases h with h | ⟨e', he', hsome⟩
  · rw [h, Option.or_none]
  · obtain ⟨r, hr⟩ := Option.isSome_iff_exists.mp hsome
    have hmem : r ∈ edges.filterMap (scene.anchorBy? f tool) := List.mem_filterMap.mpr ⟨e', he', hr⟩
    obtain ⟨first, hfirst⟩ := Option.isSome_iff_exists.mp
      (List.isSome_head?.mpr (List.ne_nil_of_mem hmem))
    rw [anchor?_eq, hfirst, Option.some_or]

end Scene

namespace Diagram

open Frames

/-- An edge that the arrangement does not look at, or that says what an edge before it has said. -/
inductive Idle (d : Diagram α) (earlier : List Edge) (e : Edge) : Prop
  | unknown {name : String} (hkind : e.kind = .other name)
  | dangling (hend : d.node? e.source = none ∨ d.node? e.target = none)
  | atTool (hkind : e.kind = .route) {id : String} (hend : id = e.source ∨ id = e.target)
      {n : Node α} (hn : d.node? ((build d).topLevel id) = some n) (htool : n.isTool = true)
  | within (hkind : e.kind = .route)
      (htop : (build d).topLevel e.source = (build d).topLevel e.target)
  | again {e' : Edge} (he' : e' ∈ earlier) {p : String × String}
      (hp' : (build d).contracted? e' = some p) (hp : (build d).contracted? e = some p)
  | toOther (hkind : e.kind = .tool) (hother : ∀ n, d.node? e.target = some n → n.isTool = false)
  | fromOther (hkind : e.kind = .tool) {n : Node α} (hn : d.node? e.source = some n)
      (hother : n.isTool = true ∨ n.isGroup = true)
  | second (hkind : e.kind = .tool) {e' : Edge} (he' : e' ∈ earlier) (hkind' : e'.kind = .tool)
      (htarget : e'.target = e.target) {n : Node α} (hn : d.node? e'.source = some n)
      (htool : n.isTool = false) (hgroup : n.isGroup = false)

def withoutEdges (d : Diagram α) (out : Nat → Bool) : Diagram α :=
  { d with edges := omitAt out d.edges }

variable {d : Diagram α} {earlier : List Edge} {e : Edge} {n : Node α} {id : String}

theorem element?_build (d : Diagram α) (id : String) : (build d).element? id = d.node? id :=
  find?_elements d id

theorem plain_of_node? (h : d.node? id = some n) (htool : n.isTool = false) :
    n ∈ (build d).plain ∧ n.id = id := by
  rw [← element?_build] at h
  obtain ⟨hn, hid⟩ := (build_wellFormed d).element?_eq_some.mp h
  exact ⟨mem_plain.mpr ⟨hn, htool⟩, hid⟩

theorem route?_of_kind {f : Frames α} (h : e.kind ≠ .route) : f.route? e = none := by
  rw [route?, contracted?, if_neg fun hroute => h hroute.1]
  rfl

theorem not_layered_of_tool (hn : d.node? id = some n) (htool : n.isTool = true) :
    (build d).layeredIds.contains id = false := by
  rw [← element?_build] at hn
  rw [← Bool.not_eq_true, List.contains_iff_mem, layeredIds, List.mem_map]
  rintro ⟨m, hm, rfl⟩
  obtain ⟨hm, hplain, -⟩ := mem_layered.mp hm
  rw [(build_wellFormed d).element?_of_mem hm, Option.some.injEq] at hn
  rw [hn, htool] at hplain
  cases hplain

theorem Idle.route (h : d.Idle earlier e) :
    (build d).route? e = none ∨ ∃ e' ∈ earlier, (build d).route? e' = (build d).route? e := by
  cases h with
  | unknown hkind => exact .inl (route?_of_kind (by simp [hkind]))
  | dangling hend =>
    left
    have hgone : ¬ (e.kind = .route ∧ ((build d).element? e.source).isSome = true ∧
        ((build d).element? e.target).isSome = true) := by
      rw [element?_build, element?_build]
      rintro ⟨-, hsource, htarget⟩
      rcases hend with hend | hend
      · rw [hend] at hsource
        cases hsource
      · rw [hend] at htarget
        cases htarget
    rw [route?, contracted?, if_neg hgone]
    rfl
  | atTool _ hend hn htool =>
    left
    have hout := not_layered_of_tool hn htool
    rw [route?, contracted?]
    split
    · rcases hend with rfl | rfl
      · rw [Option.filter_some, hout, Bool.false_and, Bool.false_and]
        rfl
      · rw [Option.filter_some, hout, Bool.and_false, Bool.false_and]
        rfl
    · rfl
  | within _ htop =>
    left
    rw [route?, contracted?]
    split
    · simp [htop]
    · rfl
  | again he' hp' hp => exact .inr ⟨_, he', by rw [route?, route?, hp', hp]⟩
  | toOther hkind _ => exact .inl (route?_of_kind (by simp [hkind]))
  | fromOther hkind _ _ => exact .inl (route?_of_kind (by simp [hkind]))
  | second hkind _ _ _ _ _ _ => exact .inl (route?_of_kind (by simp [hkind]))

theorem Idle.routes_eq (h : d.Idle earlier e) :
    (build d).routes (earlier ++ [e]) = (build d).routes earlier :=
  routes_concat_idle _ _ h.route

theorem anchorBy?_of_kind {scene : Scene α} {f : Frames α} {tool : String} (h : e.kind ≠ .tool) :
    scene.anchorBy? f tool e = none := by
  rw [Scene.anchorBy?, if_neg fun htool => h htool.1]

variable [Scalar α] (s : LayoutSettings α)

theorem Idle.anchor (h : d.Idle earlier e) {t : Node α} (ht : t ∈ (build d).tools) :
    (Plan.ofDiagram s d).scene.anchorBy? (build d) t.id e = none ∨
      ∃ e' ∈ earlier, ((Plan.ofDiagram s d).scene.anchorBy? (build d) t.id e').isSome := by
  obtain ⟨htmem, httool⟩ := List.mem_filter.mp ht
  have htfound : d.node? t.id = some t := by
    rw [← element?_build]
    exact (build_wellFormed d).element?_of_mem htmem
  by_cases htarget : e.target = t.id
  · cases h with
    | unknown hkind => exact .inl (anchorBy?_of_kind (by simp [hkind]))
    | dangling hend =>
      left
      rw [htarget, htfound] at hend
      have hsource := hend.resolve_right (Option.some_ne_none t)
      rw [Scene.anchorBy?, element?_build, hsource, Option.bind_none, ite_self]
    | atTool hkind _ _ _ => exact .inl (anchorBy?_of_kind (by simp [hkind]))
    | within hkind _ => exact .inl (anchorBy?_of_kind (by simp [hkind]))
    | again _ _ hp =>
      left
      apply anchorBy?_of_kind
      intro hkind
      rw [contracted?, if_neg fun hroute => by rw [hkind] at hroute; cases hroute.1] at hp
      cases hp
    | toOther _ hother =>
      rw [hother t (htarget ▸ htfound)] at httool
      cases httool
    | fromOther _ hn hother =>
      left
      have hskip : (_ || _) = true := (Bool.or_eq_true _ _).mpr hother
      rw [Scene.anchorBy?, element?_build, hn, Option.bind_some, if_pos hskip, ite_self]
    | second _ he' hkind' htarget' hn htool hgroup =>
      right
      obtain ⟨hplain, hid⟩ := plain_of_node? hn htool
      refine ⟨_, he', ?_⟩
      rw [Scene.anchorBy?, if_pos ⟨hkind', htarget'.trans htarget⟩, element?_build, hn,
        Option.bind_some, htool, hgroup, ← hid, Plan.scene_rect s hplain]
      rfl
  · left
    rw [Scene.anchorBy?, if_neg fun hkind => htarget hkind.2]

theorem Idle.anchor?_eq (h : d.Idle earlier e) {t : Node α} (ht : t ∈ (build d).tools) :
    (Plan.ofDiagram s d).scene.anchor? (build d) (earlier ++ [e]) t.id =
      (Plan.ofDiagram s d).scene.anchor? (build d) earlier t.id :=
  Scene.anchor?_concat_idle _ _ _ _ (h.anchor s ht)

theorem arrange_edges {edges : List Edge}
    (hroutes : (build d).routes edges = (build d).routes d.edges)
    (hanchor : ∀ t ∈ (build d).tools, (Plan.ofDiagram s d).scene.anchor? (build d) edges t.id =
      (Plan.ofDiagram s d).scene.anchor? (build d) d.edges t.id) :
    Diagram.arrange { d with edges := edges } s = d.arrange s := by
  have hplan : Plan.ofDiagram s { d with edges := edges } = Plan.ofDiagram s d := by
    have hcenters (size : Node α → Size α) :
        (build d).centers s edges size = (build d).centers s d.edges size := by
      rw [centers, flow, slotRoutes, hroutes, ← slotRoutes, ← flow, ← centers]
    have hplan (es : List Edge) : Plan.ofDiagram s { d with edges := es } =
        ⟨s, build d, (build d).fits s, ((build d).layered.zip
          ((build d).centers s es (Fits.sizeOf s ((build d).fits s)))).map fun m =>
            (m.1.id, Grid.snapPoint
              (Plan.cornerOf m.2.2 (Fits.sizeOf s ((build d).fits s) m.1)) s.gridSize)⟩ := rfl
    rw [hplan, hcenters, ← hplan]
  have htools : Plan.toolPlaces s { d with edges := edges } = Plan.toolPlaces s d := by
    have hplaces (es : List Edge) : Plan.toolPlaces s { d with edges := es } =
        (Plan.ofDiagram s { d with edges := es }).scene.placeTools s (build d) es := rfl
    rw [hplaces, hplan, Scene.placeTools, Scene.seats_congr, ← Scene.placeTools]
    · rfl
    · intro tool htool
      obtain ⟨t, ht, rfl⟩ := List.mem_map.mp htool
      exact hanchor t ht
  have houtcome : Plan.outcome s { d with edges := edges } = Plan.outcome s d := by
    funext m
    rw [Plan.outcome, hplan, htools, Plan.outcome]
  rw [arrange_outcome, houtcome, arrange_outcome]
  rfl

/-- Edges that do nothing have no influence: without any of them the arrangement is the same. -/
theorem arrange_without_idle {out : Nat → Bool}
    (h : ∀ (i : Nat) (e : Edge), d.edges[i]? = some e → out i = true →
      d.Idle (d.edges.take i) e) :
    (d.withoutEdges out).arrange s = d.arrange s := by
  apply arrange_edges
  · apply view_omitAt (build d).routes
    · intro es es' e hsame
      rw [routes_concat, routes_concat, hsame]
    · exact fun i e hi hout => (h i e hi hout).routes_eq
  · intro t ht
    apply view_omitAt fun es => (Plan.ofDiagram s d).scene.anchor? (build d) es t.id
    · intro es es' e hsame
      rw [Scene.anchor?_concat, Scene.anchor?_concat, hsame]
    · exact fun i e hi hout => (h i e hi hout).anchor?_eq s ht

/-- The first edge and the last but one are looked at, and each of the others is idle in a way of
its own. -/
theorem arrange_without_idle_mixed :
    let s : LayoutSettings Rat := .standard
    let a : Node Rat := { Node.new "a" .step with parent := some "g" }
    let lost : List Edge := [.new "a" "b" (.other "link"), .new "a" "z" .route,
      .new "t" "b" .route, .new "a" "g" .route, .new "g" "b" .route, .new "a" "b" .tool,
      .new "u" "t" .tool, .new "g" "t" .tool]
    let d : Diagram Rat := ⟨[a, .new "g" .group, .new "b" .step, .new "t" .tool, .new "u" .tool],
      .new "a" "b" .route :: lost ++ [.new "b" "t" .tool, .new "a" "t" .tool]⟩
    let out : Nat → Bool := fun i => i != 0 && i != 9
    (d.withoutEdges out).edges = [.new "a" "b" .route, .new "b" "t" .tool] ∧
      (d.withoutEdges out).arrange s = d.arrange s := by
  intro s a lost d out
  refine ⟨rfl, arrange_without_idle s fun i e he hout => ?_⟩
  match i, he, hout with
  | 0, _, hout => cases hout
  | 1, he, _ => cases he; exact .unknown rfl
  | 2, he, _ => cases he; exact .dangling (.inr rfl)
  | 3, he, _ => cases he; exact .atTool rfl (.inl rfl) rfl rfl
  | 4, he, _ => cases he; exact .within rfl rfl
  | 5, he, _ => cases he; exact .again List.mem_cons_self rfl rfl
  | 6, he, _ => cases he; exact .toOther rfl fun n hn => by cases hn; rfl
  | 7, he, _ => cases he; exact .fromOther rfl rfl (.inl rfl)
  | 8, he, _ => cases he; exact .fromOther rfl rfl (.inr rfl)
  | 9, _, hout => cases hout
  | 10, he, _ =>
    cases he
    have hfirst : Edge.new "b" "t" .tool ∈ d.edges.take 10 := by simp [d, lost]
    exact .second rfl hfirst rfl rfl rfl rfl rfl
  | i + 11, he, _ => cases he

end Diagram

end FlowCanvas
