import FlowCanvas.Proofs.Text.Entity
import FlowCanvas.Text.Markup

/-! Delimiters in written markup. A tag begins with an angle bracket, and the value of an attribute
stands between two quotes. Beyond those of its tags and values, a tree has only the delimiters that
are in the texts it is made of. Encoded texts have none. -/

namespace FlowCanvas.Markup

/-- A character that begins a tag or ends a value. -/
def Delimits (c : Char) : Prop := c = '<' ∨ c = '"'

def Inert (cs : List Char) : Prop := '<' ∉ cs ∧ '"' ∉ cs

instance (cs : List Char) : Decidable (Inert cs) := inferInstanceAs (Decidable (_ ∧ _))

variable {c : Char} {cs ds : List Char}

theorem Inert.count (h : Inert cs) (hc : Delimits c) : cs.count c = 0 := by
  rcases hc with rfl | rfl
  · exact List.count_eq_zero.mpr h.1
  · exact List.count_eq_zero.mpr h.2

theorem Inert.append (h : Inert cs) (h' : Inert ds) : Inert (cs ++ ds) :=
  ⟨List.not_mem_append h.1 h'.1, List.not_mem_append h.2 h'.2⟩

theorem inert_of_isDigit (h : ∀ c ∈ cs, c.isDigit = true) : Inert cs :=
  ⟨fun hc => Bool.false_ne_true (h _ hc), fun hc => Bool.false_ne_true (h _ hc)⟩

theorem inert_encode (s : String) : Inert (Entity.encode s).toList :=
  ⟨Entity.not_mem_encode s (by decide), Entity.not_mem_encode s (by decide)⟩

def values (attributes : List (String × String)) : List Char :=
  attributes.flatMap fun a => a.2.toList

theorem count_values_nil : (values []).count c = 0 := rfl

theorem count_values_cons (a : String × String) (as : List (String × String)) :
    (values (a :: as)).count c = a.2.toList.count c + (values as).count c := by
  rw [values, List.flatMap_cons, List.count_append, values]

theorem count_values_append (as bs : List (String × String)) :
    (values (as ++ bs)).count c = (values as).count c + (values bs).count c := by
  rw [values, List.flatMap_append, List.count_append, values, values]

theorem count_writeAttribute (hc : Delimits c) {a : String × String} (hkey : Inert a.1.toList) :
    (writeAttribute a).count c = (if c = '<' then 0 else 2) + a.2.toList.count c := by
  have hkey := hkey.count hc
  rcases hc with rfl | rfl
  · simp [writeAttribute, hkey]
  · simp +arith [writeAttribute, hkey]

theorem count_openTag (hc : Delimits c) {name : String} {attributes : List (String × String)}
    (hname : Inert name.toList) (hkeys : ∀ a ∈ attributes, Inert a.1.toList) :
    (openTag name attributes).count c =
      (if c = '<' then 1 else 2 * attributes.length) + (values attributes).count c := by
  have hvalues : (attributes.flatMap writeAttribute).count c =
      (if c = '<' then 0 else 2 * attributes.length) + (values attributes).count c := by
    induction attributes with
    | nil => simp [values]
    | cons a as ih =>
      obtain ⟨hkey, hkeys⟩ := List.forall_mem_cons.mp hkeys
      rw [List.flatMap_cons, List.count_append, count_writeAttribute hc hkey, ih hkeys,
        count_values_cons, List.length_cons]
      split <;> omega
  rw [openTag, List.count_cons, List.count_append, hname.count hc, hvalues]
  rcases hc with rfl | rfl
  · simp +arith
  · simp

theorem count_element (hc : Delimits c) {name : String} {attributes : List (String × String)}
    (hname : Inert name.toList) (hkeys : ∀ a ∈ attributes, Inert a.1.toList) (inside : List Markup) :
    (write (.element name attributes inside)).count c =
      (if c = '<' then if inside.isEmpty then 1 else 2 else 2 * attributes.length) +
        (values attributes).count c + (writeAll inside).count c := by
  have htag := count_openTag hc hname hkeys
  have hname := hname.count hc
  cases inside with
  | nil =>
    rcases hc with rfl | rfl
    · simp [write, writeAll, htag]
    · simp [write, writeAll, htag]
  | cons m ms =>
    rcases hc with rfl | rfl
    · simp +arith [write, writeAll, htag, hname]
    · simp +arith [write, writeAll, htag, hname]

theorem count_single (hc : Delimits c) {name : String} {attributes : List (String × String)}
    (hname : Inert name.toList) (hkeys : ∀ a ∈ attributes, Inert a.1.toList) :
    (write (.element name attributes [])).count c =
      (if c = '<' then 1 else 2 * attributes.length) + (values attributes).count c :=
  count_element hc hname hkeys []

theorem count_flatMap {β : Type} {f : β → List Markup} {p : β → Bool} {x y : Nat} (bs : List β)
    (h : ∀ b, (writeAll (f b)).count c = if p b then x else y) :
    (writeAll (bs.flatMap f)).count c = bs.countP p * x + bs.countP (fun b => !p b) * y := by
  induction bs with
  | nil => simp [writeAll]
  | cons b bs ih =>
    rw [List.flatMap_cons, writeAll_append, List.count_append, h, ih]
    cases hp : p b with
    | true => simp +arith [hp, Nat.add_mul]
    | false => simp +arith [hp, Nat.add_mul]

end FlowCanvas.Markup
