import FlowCanvas.Proofs.Json.Assembly
import FlowCanvas.Proofs.Json.Canonical
import FlowCanvas.Json.Strict

/-! Where the numbers of a value come from. No step of the assembly makes a number: what holds of
those in the tokens holds of those in the open containers and in the whole value. The tokens of a
strict text hold only numbers that its numerals stand for. -/

namespace FlowCanvas.Json

def AllNumbers (P : Number → Prop) (j : Json) : Prop := ∀ m ∈ j.numbers, P m

section Assembly

variable {P : Number → Prop} {lax : Bool} {stack : List Frame} {j : Json}

theorem allNumbers_array {js : List Json} (h : ∀ j ∈ js, j.AllNumbers P) :
    (Json.array js).AllNumbers P := by
  induction js with
  | nil => exact List.forall_mem_nil _
  | cons j js ih =>
    obtain ⟨hj, hjs⟩ := List.forall_mem_cons.mp h
    exact List.forall_mem_append.mpr ⟨hj, ih hjs⟩

theorem allNumbers_object {fs : List (String × Json)} (h : ∀ f ∈ fs, f.2.AllNumbers P) :
    (Json.object fs).AllNumbers P := by
  induction fs with
  | nil => exact List.forall_mem_nil _
  | cons f fs ih =>
    obtain ⟨hf, hfs⟩ := List.forall_mem_cons.mp h
    exact List.forall_mem_append.mpr ⟨hf, ih hfs⟩

def Token.AllNumbers (P : Number → Prop) : Token → Prop
  | .scalar j => j.AllNumbers P
  | .word _ s => ∀ name, s = some name → ∀ j, named? name = some j → j.AllNumbers P
  | _ => True

def Frame.AllNumbers (P : Number → Prop) : Frame → Prop
  | .items done => ∀ j ∈ done, j.AllNumbers P
  | .fields done => ∀ f ∈ done, f.2.AllNumbers P
  | .field done _ => ∀ f ∈ done, f.2.AllNumbers P

def Step.AllNumbers (P : Number → Prop) : Step → Prop
  | .refuse => True
  | .finish j => j.AllNumbers P
  | .proceed stack _ => ∀ f ∈ stack, f.AllNumbers P

theorem allNumbers_ofText (s : Option String) : (ofText s).AllNumbers P := by
  cases s <;> exact List.forall_mem_nil _

theorem allNumbers_deliver (hj : j.AllNumbers P) (hs : ∀ f ∈ stack, f.AllNumbers P) :
    (deliver j stack).AllNumbers P := by
  cases stack with
  | nil => exact hj
  | cons f stack =>
    obtain ⟨hf, hstack⟩ := List.forall_mem_cons.mp hs
    cases f with
    | items done => exact List.forall_mem_cons.mpr ⟨List.forall_mem_cons.mpr ⟨hj, hf⟩, hstack⟩
    | field done key => exact List.forall_mem_cons.mpr ⟨List.forall_mem_cons.mpr ⟨hj, hf⟩, hstack⟩
    | fields done => trivial

theorem allNumbers_openKey (key : Option String) (hs : ∀ f ∈ stack, f.AllNumbers P) :
    (openKey key stack).AllNumbers P := by
  cases stack with
  | nil => trivial
  | cons f stack =>
    cases f with
    | fields done =>
      obtain ⟨hf, hstack⟩ := List.forall_mem_cons.mp hs
      exact List.forall_mem_cons.mpr ⟨hf, hstack⟩
    | items done => trivial
    | field done key => trivial

theorem allNumbers_close {done : List (Option String × Json)} {fields : List (String × Json)}
    (hdone : ∀ f ∈ done, f.2.AllNumbers P) (hfields : ∀ f ∈ fields, f.2.AllNumbers P) :
    (close done fields).AllNumbers P := by
  induction done generalizing fields with
  | nil => exact allNumbers_object hfields
  | cons f done ih =>
    obtain ⟨key, j⟩ := f
    obtain ⟨hj, hrest⟩ := List.forall_mem_cons.mp hdone
    cases key with
    | none => exact List.forall_mem_nil _
    | some k => exact ih hrest (List.forall_mem_cons.mpr ⟨hj, hfields⟩)

theorem allNumbers_closeItems (hs : ∀ f ∈ stack, f.AllNumbers P) :
    (closeItems stack).AllNumbers P := by
  cases stack with
  | nil => trivial
  | cons f stack =>
    obtain ⟨hf, hstack⟩ := List.forall_mem_cons.mp hs
    cases f with
    | items done =>
      have hitems : ∀ j ∈ done.reverse, j.AllNumbers P := fun j hj => hf j (List.mem_reverse.mp hj)
      exact allNumbers_deliver (allNumbers_array hitems) hstack
    | field done key => trivial
    | fields done => trivial

theorem allNumbers_closeFields (hs : ∀ f ∈ stack, f.AllNumbers P) :
    (closeFields stack).AllNumbers P := by
  cases stack with
  | nil => trivial
  | cons f stack =>
    obtain ⟨hf, hstack⟩ := List.forall_mem_cons.mp hs
    cases f with
    | fields done =>
      exact allNumbers_deliver (allNumbers_close hf (List.forall_mem_nil _)) hstack
    | items done => trivial
    | field done key => trivial

theorem allNumbers_startValue {t : Token} (ht : t.AllNumbers P)
    (hs : ∀ f ∈ stack, f.AllNumbers P) : (startValue stack t).AllNumbers P := by
  cases t with
  | openArray => exact List.forall_mem_cons.mpr ⟨List.forall_mem_nil _, hs⟩
  | openObject => exact List.forall_mem_cons.mpr ⟨List.forall_mem_nil _, hs⟩
  | scalar j => exact allNumbers_deliver ht hs
  | text text => exact allNumbers_deliver (allNumbers_ofText text) hs
  | word plain text =>
    cases plain with
    | false => trivial
    | true =>
      cases text with
      | none => trivial
      | some name =>
        simp only [startValue]
        cases hnamed : named? name with
        | none => trivial
        | some j => exact allNumbers_deliver (ht name rfl j hnamed) hs
  | _ => trivial

theorem allNumbers_startKey (t : Token) (hs : ∀ f ∈ stack, f.AllNumbers P) :
    (startKey stack t).AllNumbers P := by
  cases t with
  | text text => exact allNumbers_openKey text hs
  | word plain text => exact allNumbers_openKey text hs
  | _ => trivial

theorem allNumbers_step (lax : Bool) (expected : Expected) {t : Token} (ht : t.AllNumbers P)
    (hs : ∀ f ∈ stack, f.AllNumbers P) : (step lax stack expected t).AllNumbers P := by
  have hvalue := allNumbers_startValue ht hs
  have hkey := allNumbers_startKey t hs
  have hitems := allNumbers_closeItems hs
  have hfields := allNumbers_closeFields hs
  cases expected with
  | value => exact hvalue
  | firstItem =>
    cases t with
    | closeArray => exact hitems
    | _ => exact hvalue
  | nextItem =>
    cases t with
    | closeArray => cases lax <;> [trivial; exact hitems]
    | _ => exact hvalue
  | firstKey =>
    cases t with
    | closeObject => exact hfields
    | _ => exact hkey
  | nextKey =>
    cases t with
    | closeObject => cases lax <;> [trivial; exact hfields]
    | _ => exact hkey
  | colon =>
    cases t with
    | colon => exact hs
    | _ => trivial
  | separator =>
    cases t with
    | closeArray => exact hitems
    | closeObject => exact hfields
    | comma =>
      cases stack with
      | nil => trivial
      | cons f stack => cases f <;> first | exact hs | trivial
    | _ => trivial

theorem allNumbers_assemble {ts rest : List Token} {expected : Expected}
    (ht : ∀ t ∈ ts, t.AllNumbers P) (hs : ∀ f ∈ stack, f.AllNumbers P)
    (h : assemble lax stack expected ts = some (j, rest)) : j.AllNumbers P := by
  induction ts generalizing stack expected with
  | nil => cases h
  | cons t ts ih =>
    obtain ⟨hfirst, hts⟩ := List.forall_mem_cons.mp ht
    have hstep := allNumbers_step lax expected hfirst hs
    rw [assemble_cons] at h
    cases hresult : step lax stack expected t with
    | refuse => rw [hresult] at h; cases h
    | finish k =>
      rw [hresult] at h hstep
      cases h
      exact hstep
    | proceed stack' expected' =>
      rw [hresult] at h hstep
      exact ih hts hstep h

end Assembly

namespace Strict

def IsRead (m : Number) : Prop := ∃ n : Numeral, n.strict? = some m

theorem allNumbers_token? {cs rest : List Char} {t : Token} (h : token? cs = some (t, rest)) :
    t.AllNumbers IsRead := by
  unfold token? at h
  split at h
  case h_11 =>
    obtain ⟨⟨n, rest'⟩, -, he⟩ := Option.map_eq_some_iff.mp h
    cases he
    intro m hm
    cases hread : n.strict? with
    | none =>
      rw [hread] at hm
      cases hm
    | some k =>
      rw [hread] at hm
      obtain rfl := List.mem_singleton.mp hm
      exact ⟨n, hread⟩
  case h_10 =>
    obtain ⟨⟨ps, rest'⟩, -, he⟩ := Option.map_eq_some_iff.mp h
    cases he
    trivial
  -- The other tokens hold no number.
  all_goals
    cases h
    first | trivial | exact List.forall_mem_nil _

theorem allNumbers_lex (cs : List Char) : ∀ t ∈ lex cs, t.AllNumbers IsRead := by
  fun_induction lex cs with
  | case1 => exact List.forall_mem_nil _
  | case2 => exact List.forall_mem_singleton.mpr trivial
  | case3 cs d ds hd t tail ht ih => exact List.forall_mem_cons.mpr ⟨allNumbers_token? ht, ih⟩

theorem allNumbers_value? {cs : List Char} {j : Json} {rest : List Token}
    (h : value? cs = some (j, rest)) : j.AllNumbers IsRead :=
  allNumbers_assemble (allNumbers_lex cs) (List.forall_mem_nil _) h

end Strict

end FlowCanvas.Json
