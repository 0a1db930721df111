import FlowCanvas.Picture.Svg
import FlowCanvas.Proofs.Json.Digits
import FlowCanvas.Proofs.Text.Markup
import Mathlib.Tactic.Ring

/-! Delimiters in a drawing. Ids and the font family are encoded and numbers are made of digits, so
none of them can begin a tag or end a value. Colours are put in as they are: the delimiters of a
drawing are those of its own tags and values, and those of each colour as often as it is used. -/

namespace FlowCanvas

open Markup (Delimits Inert)

namespace NumberStyle

open Float.Model (UnpackedFloat)
open Markup (inert_of_isDigit)

theorem signed_inert (sign : UnpackedFloat.Sign) {cs : List Char} (h : Inert cs) :
    Inert (signed sign cs) := by
  cases sign with
  | negative => exact (by decide : Inert ['-']).append h
  | positive => exact h

theorem positional_inert (s : NumberStyle) {d : Shortest.Digits}
    (h : ∀ c ∈ d.digits, c.isDigit = true) : Inert (s.positional d) := by
  unfold positional
  split
  · rename_i k _
    have hplaces := (inert_of_isDigit (replicate_isDigit k)).append (inert_of_isDigit h)
    exact (by decide : Inert ['0', '.']).append hplaces
  · rename_i k _
    have htake : Inert (d.digits.take (k + 1)) :=
      inert_of_isDigit fun c hc => h c (List.mem_of_mem_take hc)
    have hdrop : Inert (d.digits.drop (k + 1)) :=
      inert_of_isDigit fun c hc => h c (List.mem_of_mem_drop hc)
    have hwhole := htake.append (inert_of_isDigit (replicate_isDigit (k + 1 - d.digits.length)))
    split
    · split
      · exact hwhole.append (by decide)
      · exact hwhole
    · exact hwhole.append ((by decide : Inert ['.']).append hdrop)

theorem infinityWord_inert (sign : UnpackedFloat.Sign) : Inert (infinityWord sign).toList := by
  cases sign with
  | negative => decide
  | positive => decide

theorem plain_inert (u : UnpackedFloat) : Inert (plain.write u) := by
  cases u with
  | notANumber => decide
  | infinity sign => exact infinityWord_inert sign
  | zero sign => exact signed_inert sign (positional_inert plain Shortest.Digits.zero_proper.digits)
  | finite sign m e hm =>
    exact signed_inert sign
      (positional_inert plain (Shortest.ofFinite_proper plain.format plain.tie hm e).digits)

theorem twoPlaces_inert (u : UnpackedFloat) : Inert (twoPlaces u) := by
  cases u with
  | notANumber => decide
  | infinity sign => exact infinityWord_inert sign
  | zero sign => exact signed_inert sign (by decide)
  | finite sign m e hm =>
    have hwhole := inert_of_isDigit (toDigits_isDigit (roundHalfEven
      (100 * m * Nat.pow 2 e.toNat) (Nat.pow 2 (-e).toNat) / 100))
    have hplaces := inert_of_isDigit (toDigits_isDigit (roundHalfEven
      (100 * m * Nat.pow 2 e.toNat) (Nat.pow 2 (-e).toNat) % 100))
    have hzeros := inert_of_isDigit (replicate_isDigit (2 - (Nat.toDigits 10 (roundHalfEven
      (100 * m * Nat.pow 2 e.toNat) (Nat.pow 2 (-e).toNat) % 100)).length))
    exact signed_inert sign
      (hwhole.append ((by decide : Inert ['.']).append (hzeros.append hplaces)))

end NumberStyle

/-- How many elements of each sort are drawn. -/
@[ext]
structure Census where
  groups : Nat
  tools : Nat
  steps : Nat
  toolArrows : Nat
  routes : Nat

namespace Census

variable (n : Census) (c : Char)

def boxes : Nat := n.groups + n.tools + n.steps

def framework : Nat :=
  if c = '<' then 8 + 3 * n.boxes + n.toolArrows + n.routes
  else 36 + 30 * n.boxes + 12 * n.toolArrows + 10 * n.routes

def colours (t : Theme Float32) (background : String) : List (Nat × String) :=
  [(1, background), (1 + n.routes, t.routeColor), (n.toolArrows, t.toolEdgeColor),
    (n.groups, t.groupFill), (n.groups, t.groupBorder), (n.tools, t.toolFill),
    (n.tools, t.toolBorder), (n.steps, t.stepFill), (n.steps, t.stepBorder),
    (n.boxes, t.textColor)]

def intruders (t : Theme Float32) (background : String) : Nat :=
  ((n.colours t background).map fun u => u.1 * u.2.toList.count c).sum

end Census

namespace Picture

variable {α : Type} [Scalar α]

def census (q : Picture α) : Census where
  groups := q.groups.length
  tools := q.boxes.countP fun b => b.kind = .tool
  steps := q.boxes.countP fun b => b.kind ≠ .tool
  toolArrows := q.arrows.countP fun a => a.kind = .tool
  routes := q.arrows.countP fun a => a.kind ≠ .tool

end Picture

namespace Svg

open Markup

variable {c : Char} (hc : Delimits c) (t : Theme Float32)

theorem plain_inert (x : Float32) : Inert (plain x).toList := by
  rw [plain, Numerals.plain, instNumeralsFloat32, String.toList_ofList]
  exact NumberStyle.plain_inert _

theorem places_inert (x : Float32) : Inert (places x).toList := by
  rw [places, Numerals.places, instNumeralsFloat32, String.toList_ofList]
  exact NumberStyle.twoPlaces_inert _

theorem shapeOf_ne_tool {kind : NodeKind} (h : kind ≠ .tool) :
    shapeOf t kind = (t.stepFill, t.stepBorder, "10") := by
  cases kind with
  | tool => contradiction
  | _ => rfl

theorem strokeOf_ne_tool {kind : EdgeKind} (h : kind ≠ .tool) :
    strokeOf t kind = (t.routeColor, []) := by
  cases kind with
  | tool => contradiction
  | _ => rfl

include hc

theorem count_inert {s : String} (h : Inert s.toList) : s.toList.count c = 0 := h.count hc

theorem count_plain (x : Float32) : (plain x).toList.count c = 0 := (plain_inert x).count hc

theorem count_places (x : Float32) : (places x).toList.count c = 0 := (places_inert x).count hc

theorem count_canvas (p : PreviewSettings Float32) (view : Rect Float32) :
    (write (canvas p view)).count c =
      (if c = '<' then 1 else 10) + p.background.toList.count c := by
  rw [canvas, count_single hc (by decide) (by simp [Inert])]
  -- That a fixed text has no delimiters is found by evaluation.
  simp (disch := decide) only [count_values_cons, count_values_nil, count_inert hc,
    count_plain hc]
  simp

theorem count_arrowHead :
    (write (arrowHead t)).count c = (if c = '<' then 5 else 18) + t.routeColor.toList.count c := by
  rw [arrowHead, count_element hc (by decide) (by simp), writeAll, writeAll, List.append_nil,
    count_element hc (by decide) (by simp [Inert]), writeAll, writeAll, List.append_nil,
    count_single hc (by decide) (by simp [Inert])]
  simp (disch := decide) only [count_values_cons, count_values_nil, count_inert hc]
  split <;> simp +arith

theorem count_rect (r : Rect Float32) {radius : String} {paint : List (String × String)}
    (hradius : Inert radius.toList) (hkeys : ∀ a ∈ paint, Inert a.1.toList) :
    (write (.element "rect" (rectAttributes r ++ rounding radius ++ paint) [])).count c =
      (if c = '<' then 1 else 12 + 2 * paint.length) + (values paint).count c := by
  rw [count_single hc (by decide) (by simpa [rectAttributes, rounding, Inert] using hkeys),
    rectAttributes, rounding]
  simp only [count_values_append, count_values_cons, count_values_nil, count_places hc,
    hradius.count hc]
  split <;> simp +arith

theorem count_label (x y : Float32) {anchor : List (String × String)} (id : String)
    (hkeys : ∀ a ∈ anchor, Inert a.1.toList) (hvalues : Inert (values anchor)) :
    (write (label t x y anchor id)).count c =
      (if c = '<' then 2 else 10 + 2 * anchor.length) + t.textColor.toList.count c := by
  rw [label, count_element hc (by decide) (by simpa [Inert, or_imp, forall_and] using hkeys)]
  simp only [count_values_append, count_values_cons, count_values_nil, writeAll, write,
    List.append_nil, count_plain hc, count_places hc, count_inert hc (inert_encode _),
    hvalues.count hc]
  split <;> simp +arith

theorem count_group (b : Box Float32) :
    (writeAll (group t b)).count c = (if c = '<' then 3 else 30) + t.groupFill.toList.count c +
      t.groupBorder.toList.count c + t.textColor.toList.count c := by
  rw [group, frame, writeAll, writeAll, writeAll, List.append_nil, List.count_append,
    count_rect hc b.rect (by decide) (by simp [Inert]),
    count_label hc t _ _ b.id (by simp) (by decide)]
  simp (disch := decide) only [count_values_cons, count_values_nil, count_inert hc]
  split <;> simp +arith

theorem count_box (b : Box Float32) :
    (writeAll (box t b)).count c =
      if b.kind = .tool then (if c = '<' then 3 else 30) + t.toolFill.toList.count c +
        t.toolBorder.toList.count c + t.textColor.toList.count c
      else (if c = '<' then 3 else 30) + t.stepFill.toList.count c +
        t.stepBorder.toList.count c + t.textColor.toList.count c := by
  rw [box, writeAll, writeAll, writeAll, List.append_nil, List.count_append,
    count_label hc t _ _ b.id (by simp [Inert]) (by decide)]
  by_cases htool : b.kind = .tool
  · rw [if_pos htool, htool, shapeOf, count_rect hc b.rect (by simp [Inert]) (by simp [Inert])]
    simp (disch := decide) only [count_values_cons, count_values_nil, count_inert hc]
    split <;> simp +arith
  · rw [if_neg htool, shapeOf_ne_tool t htool,
      count_rect hc b.rect (by simp [Inert]) (by simp [Inert])]
    simp (disch := decide) only [count_values_cons, count_values_nil, count_inert hc]
    split <;> simp +arith

theorem count_arrow (a : Arrow Float32) :
    (writeAll [arrow t a]).count c =
      if a.kind = .tool then (if c = '<' then 1 else 12) + t.toolEdgeColor.toList.count c
      else (if c = '<' then 1 else 10) + t.routeColor.toList.count c := by
  rw [writeAll, arrow, writeAll, List.append_nil]
  by_cases htool : a.kind = .tool
  · rw [if_pos htool, htool, strokeOf, count_single hc (by decide) (by simp [Inert])]
    simp (disch := decide) only [count_values_append, count_values_cons, count_values_nil,
      String.toList_append, List.count_append, count_inert hc, count_places hc]
    split <;> simp +arith
  · rw [if_neg htool, strokeOf_ne_tool t htool, count_single hc (by decide) (by simp [Inert])]
    simp (disch := decide) only [count_values_append, count_values_cons, count_values_nil,
      String.toList_append, List.count_append, count_inert hc, count_places hc]
    split <;> simp +arith

theorem count_drawing (p : PreviewSettings Float32) (q : Picture Float32) :
    (write (drawing t p q)).count c =
      q.census.framework c + q.census.intruders c t p.background := by
  have hvalues : (values [("xmlns", "http://www.w3.org/2000/svg"), ("width", plain q.view.width),
      ("height", plain q.view.height), ("viewBox", plain q.view.x ++ " " ++ plain q.view.y ++ " " ++
        plain q.view.width ++ " " ++ plain q.view.height)]).count c = 0 := by
    simp (disch := decide) only [count_values_cons, count_values_nil, String.toList_append,
      List.count_append, count_inert hc, count_plain hc]
  -- All groups count alike, but arrows and boxes of tools are painted in colours of their own.
  have hgroups := count_flatMap (p := fun _ => true) (y := 0) q.groups fun b => by
    rw [if_pos rfl, count_group hc t b]
  have harrows := count_flatMap (p := fun a => decide (a.kind = .tool)) q.arrows fun a => by
    simpa only [decide_eq_true_eq] using count_arrow hc t a
  have hboxes := count_flatMap (p := fun b => decide (b.kind = .tool)) q.boxes fun b => by
    simpa only [decide_eq_true_eq] using count_box hc t b
  rw [List.countP_true] at hgroups
  rw [← List.map_eq_flatMap] at harrows
  rw [drawing, content, count_element hc (by decide) (by simp [Inert]), hvalues, writeAll, writeAll,
    writeAll_append, writeAll_append, List.count_append, List.count_append, List.count_append,
    List.count_append, count_canvas hc, count_arrowHead hc t, hgroups, harrows, hboxes]
  simp only [Census.framework, Census.intruders, Census.colours, Census.boxes, Picture.census,
    decide_not, List.map_cons, List.map_nil, List.sum_cons, List.sum_nil, List.isEmpty_cons,
    Bool.false_eq_true, if_false, List.length_cons, List.length_nil]
  split_ifs <;> ring

end Svg

namespace Arrangement

variable {α : Type} [Scalar α] (a : Arrangement α) (edges : List Edge)

def draws (e : Edge) : Bool := (a.box? e.source).isSome && (a.box? e.target).isSome

def census : Census where
  groups := a.groups.length
  tools := a.boxes.countP fun b => b.kind = .tool
  steps := a.boxes.countP fun b => b.kind ≠ .tool ∧ b.kind ≠ .group
  toolArrows := edges.countP fun e => a.draws e && e.kind = .tool
  routes := edges.countP fun e => a.draws e && e.kind ≠ .tool

theorem countP_arrows (p : EdgeKind → Bool) :
    (edges.filterMap (Picture.arrow? a)).countP (fun r => p r.kind) =
      edges.countP fun e => a.draws e && p e.kind := by
  rw [List.countP_filterMap]
  refine List.countP_congr fun e _ => ?_
  unfold draws Picture.arrow?
  cases a.box? e.source <;> cases a.box? e.target <;> simp

variable {a edges}

theorem census_picture {padding : α} {q : Picture α}
    (h : Picture.ofArrangement? padding a edges = some q) : q.census = a.census edges := by
  obtain ⟨groups, hgroups, rfl⟩ := Option.map_eq_some_iff.mp h
  refine Census.ext ?_ ?_ ?_ ?_ ?_
  · exact (Picture.byArea?_perm hgroups).length_eq
  · refine List.countP_filter.trans (List.countP_congr fun b _ => ?_)
    simp +contextual
  · refine List.countP_filter.trans (List.countP_congr fun b _ => ?_)
    simp
  · exact countP_arrows a edges fun kind => kind = .tool
  · exact countP_arrows a edges fun kind => kind ≠ .tool

/-- In the text of a picture no id and no font family brings in a delimiter, and each colour brings
in its own ones wherever it is used: with the same colours, the delimiters depend only on how many
elements of each sort are drawn. -/
theorem svg_delimiters {a : Arrangement Float32} {edges : List Edge} {t : Theme Float32}
    {p : PreviewSettings Float32} {text : String} {c : Char} (hc : Markup.Delimits c)
    (h : a.svg? edges t p = some text) :
    text.toList.count c =
      (a.census edges).framework c + (a.census edges).intruders c t p.background := by
  obtain ⟨q, hq, rfl⟩ := Option.map_eq_some_iff.mp h
  rw [String.toList_ofList, Svg.count_drawing hc, census_picture hq]

theorem svg_delimiters_quoted :
    let a : Arrangement Float32 := ⟨[], [⟨"a<b", .step, none, Rect.empty⟩,
      ⟨"\"web\"", .tool, none, Rect.empty⟩], Rect.empty⟩
    let edges := [Edge.new "a<b" "\"web\"" .tool]
    Markup.Delimits '"' ∧ ∃ text, a.svg? edges .classic .standard = some text ∧
      text.toList.count '"' = 108 := by
  intro a edges
  let p : PreviewSettings Float32 := .standard
  have hcount : (a.census edges).framework '"' +
      (a.census edges).intruders '"' .classic p.background = 108 := by decide
  exact ⟨.inr rfl, _, rfl, (svg_delimiters (.inr rfl) rfl).trans hcount⟩

/-- A background that ends its value and begins a tag: two pictures of nothing have different
delimiters. -/
theorem svg_delimiters_background :
    ¬ ∀ (a a' : Arrangement Float32) (edges edges' : List Edge) (t t' : Theme Float32)
        (p p' : PreviewSettings Float32) (text text' : String) (c : Char),
        a.svg? edges t p = some text → a'.svg? edges' t' p' = some text' →
        a.census edges = a'.census edges' → Markup.Delimits c →
        text.toList.count c = text'.toList.count c := by
  intro h
  let a : Arrangement Float32 := ⟨[], [], Rect.empty⟩
  let p : PreviewSettings Float32 := .standard
  let p' : PreviewSettings Float32 := { p with background := "\"/><script>" }
  obtain ⟨q, hq⟩ : ∃ q, Picture.ofArrangement? p.padding a [] = some q := ⟨_, rfl⟩
  have htext : a.svg? [] .modern p = some (String.ofList (Svg.drawing .modern p q).write) :=
    congrArg (Option.map _) hq
  have htext' : a.svg? [] .modern p' = some (String.ofList (Svg.drawing .modern p' q).write) :=
    congrArg (Option.map _) hq
  have hcount := h a a [] [] .modern .modern p p' _ _ '<' htext htext' rfl (.inl rfl)
  rw [String.toList_ofList, String.toList_ofList, Svg.count_drawing (.inl rfl),
    Svg.count_drawing (.inl rfl), census_picture hq] at hcount
  exact absurd hcount (by decide)

end Arrangement

end FlowCanvas
