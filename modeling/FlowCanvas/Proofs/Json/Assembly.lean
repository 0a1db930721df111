import Mathlib.Data.List.Induction
import FlowCanvas.Json.Token

/-! Assembling the tokens of a value. Where a value may stand, its tokens are taken up to the last
one and the value is put into the innermost open container. The tokens after them do not matter. -/

namespace FlowCanvas.Json

def Step.resume (lax : Bool) (ts : List Token) : Step → Option (Json × List Token)
  | .refuse => none
  | .finish j => some (j, ts)
  | .proceed stack expected => assemble lax stack expected ts

variable {lax : Bool} {stack : List Frame} {expected : Expected}

theorem assemble_cons (t : Token) (ts : List Token) :
    assemble lax stack expected (t :: ts) = (step lax stack expected t).resume lax ts := by
  rw [assemble]
  cases step lax stack expected t <;> rfl

inductive Expected.IsValue : Expected → Prop
  | value : IsValue .value
  | firstItem : IsValue .firstItem
  | nextItem : IsValue .nextItem

inductive Expected.IsKey : Expected → Prop
  | firstKey : IsKey .firstKey
  | nextKey : IsKey .nextKey

theorem Expected.IsValue.step_eq (h : expected.IsValue) {t : Token} (ht : t ≠ .closeArray) :
    step lax stack expected t = startValue stack t := by
  cases h with
  | value => rfl
  | firstItem => cases t <;> first | rfl | exact absurd rfl ht
  | nextItem => cases t <;> first | rfl | exact absurd rfl ht

theorem Expected.IsKey.step_eq (h : expected.IsKey) {t : Token} (ht : t ≠ .closeObject) :
    step lax stack expected t = startKey stack t := by
  cases h with
  | firstKey => cases t <;> first | rfl | exact absurd rfl ht
  | nextKey => cases t <;> first | rfl | exact absurd rfl ht

theorem Expected.IsValue.assemble_cons (h : expected.IsValue) (t : Token) (ht : t ≠ .closeArray)
    (ts : List Token) :
    assemble lax stack expected (t :: ts) = (startValue stack t).resume lax ts := by
  rw [Json.assemble_cons, h.step_eq ht]

theorem Expected.IsKey.assemble_cons (h : expected.IsKey) (k : String)
    (done : List (Option String × Json)) (ts : List Token) :
    assemble lax (.fields done :: stack) expected (.text (some k) :: .colon :: ts) =
      assemble lax (.field done (some k) :: stack) .value ts := by
  cases h <;> rfl

def openField (f : String × Json) : Option String × Json := (some f.1, f.2)

theorem close_openField (fs gs : List (String × Json)) :
    close (fs.map openField).reverse gs = .object (fs ++ gs) := by
  induction fs using List.reverseRecOn generalizing gs with
  | nil => rfl
  | append_singleton fs f ih =>
    rw [List.map_append, List.reverse_append, List.append_assoc]
    exact ih (f :: gs)

mutual

theorem assemble_tokens (j : Json) (stack : List Frame) {expected : Expected}
    (h : expected.IsValue) (ts : List Token) :
    assemble lax stack expected (j.tokens ++ ts) = (deliver j stack).resume lax ts := by
  match j with
  | .null => exact h.assemble_cons (.scalar .null) nofun ts
  | .bool b => exact h.assemble_cons (.scalar (.bool b)) nofun ts
  | .number n => exact h.assemble_cons (.scalar (.number n)) nofun ts
  | .text s => exact h.assemble_cons (.text (some s)) nofun ts
  | .unreadable => exact h.assemble_cons (.scalar .unreadable) nofun ts
  | .array [] => exact h.assemble_cons .openArray nofun (.closeArray :: ts)
  | .array (j :: js) =>
    rw [tokens, List.cons_append, h.assemble_cons .openArray nofun]
    exact assemble_itemTokens (j :: js) nofun stack .firstItem [] ts
  | .object [] => exact h.assemble_cons .openObject nofun (.closeObject :: ts)
  | .object (f :: fs) =>
    have hfields := assemble_fieldTokens (f :: fs) nofun stack .firstKey [] ts
    rw [List.append_nil, close_openField, List.append_nil] at hfields
    rw [tokens, List.cons_append, h.assemble_cons .openObject nofun]
    exact hfields

theorem assemble_itemTokens (js : List Json) (hjs : js ≠ []) (stack : List Frame)
    {expected : Expected} (h : expected.IsValue) (done : List Json) (ts : List Token) :
    assemble lax (.items done :: stack) expected (itemTokens js ++ ts) =
      (deliver (.array (done.reverse ++ js)) stack).resume lax ts := by
  match js with
  | [j] =>
    have hdone : done.reverse ++ [j] = (j :: done).reverse := (List.reverse_cons).symm
    rw [itemTokens, List.append_assoc, assemble_tokens j _ h, hdone]
    rfl
  | j :: j' :: js =>
    have hrest := assemble_itemTokens (j' :: js) nofun stack .nextItem (j :: done) ts
    rw [List.reverse_cons, List.append_assoc] at hrest
    rw [itemTokens, List.append_assoc, assemble_tokens j _ h]
    · exact hrest
    · nofun

theorem assemble_fieldTokens (fs : List (String × Json)) (hfs : fs ≠ []) (stack : List Frame)
    {expected : Expected} (h : expected.IsKey) (done : List (Option String × Json))
    (ts : List Token) :
    assemble lax (.fields done :: stack) expected (fieldTokens fs ++ ts) =
      (deliver (close ((fs.map openField).reverse ++ done) []) stack).resume lax ts := by
  match fs with
  | [(k, j)] =>
    simp only [fieldTokens, List.cons_append, List.append_assoc]
    rw [h.assemble_cons, assemble_tokens j _ .value]
    rfl
  | (k, j) :: f :: fs =>
    have hrest := assemble_fieldTokens (f :: fs) nofun stack .nextKey ((some k, j) :: done) ts
    simp only [fieldTokens, List.cons_append, List.append_assoc, List.map_cons,
      List.reverse_cons] at hrest ⊢
    rw [h.assemble_cons, assemble_tokens j _ .value]
    exact hrest

end

theorem assemble?_tokens (lax : Bool) (j : Json) (ts : List Token) :
    assemble? lax (j.tokens ++ ts) = some (j, ts) :=
  assemble_tokens j [] .value ts

theorem fieldTokens_closed (fs : List (String × Json)) :
    ∃ ts, fieldTokens fs = ts ++ [.closeObject] := by
  match fs with
  | [] => exact ⟨[], rfl⟩
  | [(k, j)] => exact ⟨.text (some k) :: .colon :: j.tokens, rfl⟩
  | (k, j) :: f :: fs =>
    obtain ⟨ts, hts⟩ := fieldTokens_closed (f :: fs)
    refine ⟨.text (some k) :: .colon :: (j.tokens ++ .comma :: ts), ?_⟩
    simp only [fieldTokens, hts, List.cons_append, List.append_assoc]

end FlowCanvas.Json
