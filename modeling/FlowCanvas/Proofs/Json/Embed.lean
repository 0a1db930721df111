import Mathlib.Data.List.Forall2
import FlowCanvas.Proofs.Json.Assembly
import FlowCanvas.Proofs.Json.Reread

/-! Texts within texts. A text that is one value is cut into the same tokens where it stands in a
longer text, if what follows cannot go on with its last token, and they are assembled to the same
value above whatever containers are open. So the text of an object may be put together from texts of
its fields. -/

namespace FlowCanvas.Json

section Stack

variable {lax : Bool} {s : List Frame} {expected : Expected} {j : Json}

def Step.onto (stack : List Frame) : Step → Step
  | .refuse => .refuse
  | .finish j => deliver j stack
  | .proceed s expected => .proceed (s ++ stack) expected

/-- With more containers open a step is the same, but where it was refused for want of one. -/
def Step.Lifts (stack : List Frame) (before after : Step) : Prop :=
  before ≠ .refuse → after = before.onto stack

theorem Step.lifts_refuse (stack : List Frame) (after : Step) : Step.refuse.Lifts stack after :=
  fun h => absurd rfl h

theorem deliver_lifts (j : Json) (s stack : List Frame) :
    (deliver j s).Lifts stack (deliver j (s ++ stack)) := by
  cases s with
  | nil => exact fun _ => rfl
  | cons f s =>
    cases f with
    | items done => exact fun _ => rfl
    | field done key => exact fun _ => rfl
    | fields done => exact Step.lifts_refuse _ _

theorem openKey_lifts (key : Option String) (s stack : List Frame) :
    (openKey key s).Lifts stack (openKey key (s ++ stack)) := by
  cases s with
  | nil => exact Step.lifts_refuse _ _
  | cons f s =>
    cases f with
    | items done => exact Step.lifts_refuse _ _
    | field done key => exact Step.lifts_refuse _ _
    | fields done => exact fun _ => rfl

theorem closeItems_lifts (s stack : List Frame) :
    (closeItems s).Lifts stack (closeItems (s ++ stack)) := by
  cases s with
  | nil => exact Step.lifts_refuse _ _
  | cons f s =>
    cases f with
    | items done => exact deliver_lifts (.array done.reverse) s stack
    | field done key => exact Step.lifts_refuse _ _
    | fields done => exact Step.lifts_refuse _ _

theorem closeFields_lifts (s stack : List Frame) :
    (closeFields s).Lifts stack (closeFields (s ++ stack)) := by
  cases s with
  | nil => exact Step.lifts_refuse _ _
  | cons f s =>
    cases f with
    | items done => exact Step.lifts_refuse _ _
    | field done key => exact Step.lifts_refuse _ _
    | fields done => exact deliver_lifts (close done []) s stack

theorem startValue_lifts (s stack : List Frame) (t : Token) :
    (startValue s t).Lifts stack (startValue (s ++ stack) t) := by
  cases t with
  | openArray => exact fun _ => rfl
  | openObject => exact fun _ => rfl
  | scalar j => exact deliver_lifts j s stack
  | text text => exact deliver_lifts (ofText text) s stack
  | word plain text =>
    cases plain with
    | false => exact Step.lifts_refuse _ _
    | true =>
      cases text with
      | none => exact Step.lifts_refuse _ _
      | some name =>
        simp only [startValue]
        cases named? name with
        | none => exact Step.lifts_refuse _ _
        | some j => exact deliver_lifts j s stack
  | closeArray => exact Step.lifts_refuse _ _
  | closeObject => exact Step.lifts_refuse _ _
  | comma => exact Step.lifts_refuse _ _
  | colon => exact Step.lifts_refuse _ _
  | stray => exact Step.lifts_refuse _ _

theorem startKey_lifts (s stack : List Frame) (t : Token) :
    (startKey s t).Lifts stack (startKey (s ++ stack) t) := by
  cases t with
  | text text => exact openKey_lifts text s stack
  | word plain text => exact openKey_lifts text s stack
  | _ => exact Step.lifts_refuse _ _

theorem step_lifts (lax : Bool) (s stack : List Frame) (expected : Expected) (t : Token) :
    (step lax s expected t).Lifts stack (step lax (s ++ stack) expected t) := by
  -- Where a value or a key may stand, only the end of the container takes another way.
  have hvalue (hexpected : expected.IsValue) (ht : t ≠ .closeArray) :
      (step lax s expected t).Lifts stack (step lax (s ++ stack) expected t) := by
    rw [hexpected.step_eq ht, hexpected.step_eq ht]
    exact startValue_lifts s stack t
  have hkey (hexpected : expected.IsKey) (ht : t ≠ .closeObject) :
      (step lax s expected t).Lifts stack (step lax (s ++ stack) expected t) := by
    rw [hexpected.step_eq ht, hexpected.step_eq ht]
    exact startKey_lifts s stack t
  cases expected with
  | value => exact startValue_lifts s stack t
  | firstItem =>
    by_cases ht : t = .closeArray
    · subst ht
      exact closeItems_lifts s stack
    · exact hvalue .firstItem ht
  | nextItem =>
    by_cases ht : t = .closeArray
    · subst ht
      cases lax with
      | true => exact closeItems_lifts s stack
      | false => exact Step.lifts_refuse _ _
    · exact hvalue .nextItem ht
  | firstKey =>
    by_cases ht : t = .closeObject
    · subst ht
      exact closeFields_lifts s stack
    · exact hkey .firstKey ht
  | nextKey =>
    by_cases ht : t = .closeObject
    · subst ht
      cases lax with
      | true => exact closeFields_lifts s stack
      | false => exact Step.lifts_refuse _ _
    · exact hkey .nextKey ht
  | colon =>
    cases t with
    | colon => exact fun _ => rfl
    | _ => exact Step.lifts_refuse _ _
  | separator =>
    cases t with
    | closeArray => exact closeItems_lifts s stack
    | closeObject => exact closeFields_lifts s stack
    | comma =>
      cases s with
      | nil => exact Step.lifts_refuse _ _
      | cons f s =>
        cases f with
        | items done => exact fun _ => rfl
        | fields done => exact fun _ => rfl
        | field done key => exact Step.lifts_refuse _ _
    | _ => exact Step.lifts_refuse _ _

theorem assemble_onto {ts rest : List Token} (stack : List Frame) (us : List Token)
    (h : assemble lax s expected ts = some (j, rest)) :
    assemble lax (s ++ stack) expected (ts ++ us) = (deliver j stack).resume lax (rest ++ us) := by
  -- By the tokens that are read. None of their steps is refused, so each of them lifts.
  induction ts generalizing s expected with
  | nil => cases h
  | cons t ts ih =>
    have hlift := step_lifts lax s stack expected t
    rw [assemble_cons] at h
    rw [List.cons_append, assemble_cons]
    cases hstep : step lax s expected t with
    | refuse => rw [hstep] at h; cases h
    | finish k =>
      rw [hstep] at h hlift
      cases h
      rw [hlift nofun]
      rfl
    | proceed s' expected' =>
      rw [hstep] at h hlift
      rw [hlift nofun]
      exact ih h

theorem step_stray (lax : Bool) (s : List Frame) (expected : Expected) :
    step lax s expected .stray = .refuse := by
  cases expected <;> rfl

theorem stray_not_mem {ts : List Token} (h : assemble lax s expected ts = some (j, [])) :
    Token.stray ∉ ts := by
  induction ts generalizing s expected with
  | nil => exact List.not_mem_nil
  | cons t ts ih =>
    rw [assemble_cons] at h
    refine List.not_mem_cons_of_ne_of_not_mem ?_ ?_
    · rintro rfl
      rw [step_stray] at h
      cases h
    · cases hstep : step lax s expected t with
      | refuse => rw [hstep] at h; cases h
      | finish k => rw [hstep] at h; cases h; exact List.not_mem_nil
      | proceed s' expected' => rw [hstep] at h; exact ih h

end Stack

namespace Strict

variable {cs rest tail : List Char}

theorem addPiece_eq_some {p : Piece} {r : Option (List Piece × List Char)} {ps : List Piece}
    (h : addPiece p r = some (ps, tail)) : ∃ qs, ps = p :: qs ∧ r = some (qs, tail) := by
  unfold addPiece at h
  split at h
  · cases h
    exact ⟨_, rfl, rfl⟩
  · cases h

theorem string?_append {ps : List Piece} (rest : List Char) (h : string? cs = some (ps, tail)) :
    string? (cs ++ rest) = some (ps, tail ++ rest) := by
  fun_induction string? cs generalizing ps with
  | case1 => cases h
  | case2 cs => cases h; rfl
  | case3 a b c d cs u hu ih =>
    obtain ⟨qs, rfl, hqs⟩ := addPiece_eq_some h
    simp only [List.cons_append, string?, hu, ih hqs, addPiece]
  | case4 => cases h
  | case5 c cs hn e he ih =>
    obtain ⟨qs, rfl, hqs⟩ := addPiece_eq_some h
    have hc : c ≠ 'u' := by
      rintro rfl
      cases he
    rw [List.cons_append, List.cons_append, string?, he]
    · simp only [ih hqs, addPiece]
    · exact fun _ _ _ _ _ hu _ => hc hu
  | case6 => cases h
  | case7 => cases h
  | case8 c cs h1 h2 h3 h4 ih =>
    obtain ⟨qs, rfl, hqs⟩ := addPiece_eq_some h
    have hc : c ≠ '\\' := by
      rintro rfl
      cases cs with
      | nil => cases hqs
      | cons d ds => exact h3 d ds rfl rfl
    rw [List.cons_append, string?, if_neg h4, ih hqs]
    · rfl
    · exact h1
    · exact fun _ _ _ _ _ hslash _ => hc hslash
    · exact fun _ _ hslash _ => hc hslash

theorem token?_append (hr : Ends rest) {t : Token} (h : token? cs = some (t, tail)) :
    token? (cs ++ rest) = some (t, tail ++ rest) := by
  -- Texts and numerals go on through the characters. All else is taken by its first ones.
  unfold token? at h
  split at h
  case h_10 cs =>
    simp only [Option.map_eq_some_iff, Prod.exists, Prod.mk.injEq] at h
    obtain ⟨ps, r, hstring, rfl, rfl⟩ := h
    rw [List.cons_append, token?, string?_append rest hstring, Option.map_some]
  case h_11 =>
    simp only [Option.map_eq_some_iff, Prod.exists, Prod.mk.injEq] at h
    obtain ⟨n, r, hnumeral, rfl, rfl⟩ := h
    exact token?_numeral hr hnumeral
  all_goals
    cases h
    rfl

theorem lex_append (hr : Ends rest) (h : Token.stray ∉ lex cs) :
    lex (cs ++ rest) = lex cs ++ lex rest := by
  fun_induction lex cs with
  | case1 cs hd => exact lex_congr (by rw [List.dropWhile_append, hd]; rfl)
  | case2 cs d ds hd ht => exact absurd List.mem_cons_self h
  | case3 cs d ds hd t tail ht ih =>
    have hstart : (cs ++ rest).dropWhile isSpace = d :: ds ++ rest := by
      rw [List.dropWhile_append, hd]
      rfl
    have htoken : token? ((cs ++ rest).dropWhile isSpace) = some (t, tail ++ rest) := by
      rw [hstart]
      exact token?_append hr ht
    rw [lex_of_start htoken, ih fun hmem => h (List.mem_cons_of_mem t hmem), List.cons_append]

end Strict

/-- A text is one value and no more. -/
def Reads (text : String) (j : Json) : Prop := Strict.value? text.toList = some (j, [])

theorem Reads.value? {text : String} {j : Json} (h : Reads text j) :
    Strict.value? text.toList = some (j, []) := h

theorem exists_reads_of_check (text : String) (check : Json → Bool)
    (h : (match Strict.value? text.toList with
      | some (j, []) => check j
      | _ => false) = true) : ∃ j, Reads text j ∧ check j = true := by
  split at h
  · exact ⟨_, ‹_›, h⟩
  · cases h

def fieldsText : List (String × String) → List Char
  | [] => ['\x7d']
  | [(k, value)] => quote k ++ ':' :: (value.toList ++ ['\x7d'])
  | (k, value) :: f :: fs => quote k ++ ':' :: (value.toList ++ ',' :: fieldsText (f :: fs))

def objectText (fields : List (String × String)) : String :=
  String.ofList ('\x7b' :: fieldsText fields)

open Strict (lex Ends lex_append lex_key lex_comma)

variable {text : String} {j : Json} {rest : List Char}

theorem Reads.assemble (h : Reads text j) (stack : List Frame) (hr : Ends rest) :
    assemble false stack .value (lex (text.toList ++ rest)) =
      (deliver j stack).resume false (lex rest) := by
  have hvalue : Json.assemble false [] .value (lex text.toList) = some (j, []) := h.value?
  rw [lex_append hr (stray_not_mem hvalue)]
  exact assemble_onto stack (lex rest) hvalue

theorem lex_close : lex ['\x7d'] = [.closeObject] := by
  rw [Strict.lex_closeObject, Strict.lex_nil]

abbrev ReadsFields : List (String × String) → List (String × Json) → Prop :=
  List.Forall₂ fun f g => f.1 = g.1 ∧ Reads f.2 g.2

theorem ReadsFields.assemble {fs : List (String × String)} {gs : List (String × Json)}
    (h : ReadsFields fs gs) (hfs : fs ≠ []) {expected : Expected} (hexpected : expected.IsKey)
    (done : List (Option String × Json)) :
    Json.assemble false [.fields done] expected (lex (fieldsText fs)) =
      some (close ((gs.map openField).reverse ++ done) [], []) := by
  induction h generalizing expected done with
  | nil => exact absurd rfl hfs
  | @cons f g fs gs hfield htail ih =>
    obtain ⟨k, value⟩ := f
    obtain ⟨k', j⟩ := g
    obtain ⟨rfl, hj⟩ := hfield
    cases htail with
    | nil =>
      rw [fieldsText, lex_key, hexpected.assemble_cons, hj.assemble _ (.cons (by decide) []),
        lex_close]
      rfl
    | cons hfield' htail' =>
      have hrest := ih nofun .nextKey ((some k, j) :: done)
      rw [fieldsText, lex_key, hexpected.assemble_cons, hj.assemble _ (.cons (by decide) _),
        lex_comma, List.map_cons, List.reverse_cons, List.append_assoc]
      exact hrest

theorem reads_objectText {fs : List (String × String)} {gs : List (String × Json)}
    (h : ReadsFields fs gs) : Reads (objectText fs) (.object gs) := by
  rw [Reads, objectText, String.toList_ofList, Strict.value?, Strict.lex_openObject]
  cases h with
  | nil =>
    rw [fieldsText, lex_close]
    rfl
  | cons hj htail =>
    have hfields := ReadsFields.assemble (.cons hj htail) (List.cons_ne_nil _ _) .firstKey []
    rw [List.append_nil, close_openField, List.append_nil] at hfields
    exact hfields

end FlowCanvas.Json
