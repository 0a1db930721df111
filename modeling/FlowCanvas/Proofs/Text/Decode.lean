import FlowCanvas.Proofs.Association
import FlowCanvas.Proofs.Text.Entity

/-! Encoded text read back. The characters are replaced one after the other over the whole text, but
no entity holds a character that is replaced after it. So every character is replaced once, by its
entity or by itself, every ampersand begins an entity, and putting the characters of all entities
back in one pass gives the text that was encoded. -/

namespace FlowCanvas.Entity

def entity (c : Char) : List Char :=
  match table.lookup c with
  | some word => word.toList
  | none => [c]

/-- Reads entities from left to right. An ampersand that begins none stands for itself. -/
def readEntities : List Char → List Char
  | '&' :: 'a' :: 'm' :: 'p' :: ';' :: cs => '&' :: readEntities cs
  | '&' :: 'l' :: 't' :: ';' :: cs => '<' :: readEntities cs
  | '&' :: 'g' :: 't' :: ';' :: cs => '>' :: readEntities cs
  | '&' :: 'q' :: 'u' :: 'o' :: 't' :: ';' :: cs => '"' :: readEntities cs
  | '&' :: 'a' :: 'p' :: 'o' :: 's' :: ';' :: cs => '\x27' :: readEntities cs
  | c :: cs => c :: readEntities cs
  | [] => []

def decode (s : String) : String := String.ofList (readEntities s.toList)

variable {c : Char} {word : String} {rest after : List Char}

theorem entity_cases (c : Char) :
    (∃ word, (c, word) ∈ table ∧ entity c = word.toList) ∨
      (∀ e ∈ table, e.1 ≠ c) ∧ entity c = [c] := by
  cases hlookup : table.lookup c with
  | some word => exact .inl ⟨word, mem_of_lookup hlookup, by rw [entity, hlookup]⟩
  | none =>
    have hnone := List.lookup_eq_none_iff.mp hlookup
    exact .inr ⟨fun e he heq => bne_iff_ne.mp (hnone e he) heq.symm, by rw [entity, hlookup]⟩

section Encoding

def replaceAll (entries : List (Char × String)) (cs : List Char) : List Char :=
  entries.foldl (fun cs (c, word) => replace c word cs) cs

theorem replaceAll_append (entries : List (Char × String)) (xs ys : List Char) :
    replaceAll entries (xs ++ ys) = replaceAll entries xs ++ replaceAll entries ys := by
  induction entries generalizing xs ys with
  | nil => rfl
  | cons e entries ih =>
    have hstep := ih (replace e.1 e.2 xs) (replace e.1 e.2 ys)
    rw [← replace_append] at hstep
    exact hstep

theorem replaceAll_of_ne {entries : List (Char × String)} (h : ∀ e ∈ entries, e.1 ≠ c) :
    replaceAll entries [c] = [c] := by
  induction entries with
  | nil => rfl
  | cons e entries ih =>
    obtain ⟨hne, hrest⟩ := List.forall_mem_cons.mp h
    have hkeep : replace e.1 e.2 [c] = [c] := by
      rw [replace, List.flatMap_singleton, if_neg hne.symm]
    calc replaceAll (e :: entries) [c] = replaceAll entries (replace e.1 e.2 [c]) := rfl
      _ = replaceAll entries [c] := by rw [hkeep]
      _ = [c] := ih hrest

theorem replaceAll_table (c : Char) : replaceAll table [c] = entity c := by
  rcases entity_cases c with ⟨word, hword, hentity⟩ | ⟨hne, hentity⟩
  · rw [hentity]
    simp only [table, List.mem_cons, List.not_mem_nil, or_false, Prod.mk.injEq] at hword
    rcases hword with ⟨rfl, rfl⟩ | ⟨rfl, rfl⟩ | ⟨rfl, rfl⟩ | ⟨rfl, rfl⟩ | ⟨rfl, rfl⟩ <;> decide
  · rw [hentity, replaceAll_of_ne hne]

theorem encode_toList (s : String) : (encode s).toList = s.toList.flatMap entity := by
  have hall : ∀ cs, replaceAll table cs = cs.flatMap entity := by
    intro cs
    induction cs with
    | nil => rfl
    | cons c cs ih =>
      rw [← List.singleton_append, replaceAll_append, replaceAll_table, ih, List.flatMap_append,
        List.flatMap_singleton]
  have hencode : (encode s).toList = replaceAll table s.toList := by
    rw [encode, String.toList_ofList, replaceAll]
  rw [hencode, hall]

theorem entity_ampersand {before : List Char} (h : entity c = before ++ '&' :: after) :
    before = [] ∧ ∃ e ∈ table, entity c = e.2.toList := by
  rcases entity_cases c with ⟨word, hword, hentity⟩ | ⟨hne, hentity⟩
  · have htail : ∀ e ∈ table, '&' ∉ e.2.toList.tail := by decide
    cases before with
    | nil => exact ⟨rfl, _, hword, hentity⟩
    | cons b before =>
      have hmem : '&' ∈ word.toList.tail := by
        rw [← hentity, h]
        exact List.mem_append_right _ List.mem_cons_self
      exact absurd hmem (htail _ hword)
  · have hc : '&' ∈ [c] := by
      rw [← hentity, h]
      exact List.mem_append_right _ List.mem_cons_self
    exact absurd (List.mem_singleton.mp hc) (hne ('&', "&amp;") (by decide))

theorem ampersand_begins {cs : List Char} (h : '&' :: after <:+ cs.flatMap entity) :
    ∃ e ∈ table, e.2.toList <+: '&' :: after := by
  induction cs with
  | nil => cases List.suffix_nil.mp h
  | cons c cs ih =>
    obtain ⟨before, hbefore⟩ := h
    rw [List.flatMap_cons, List.append_eq_append_iff] at hbefore
    rcases hbefore with ⟨part, hentity, hafter⟩ | ⟨before, -, hrest⟩
    · cases part with
      | nil => exact ih ⟨[], hafter⟩
      | cons d part =>
        -- The ampersand is in the entity, of which it is the beginning.
        obtain ⟨rfl, htail⟩ := List.cons.inj hafter
        obtain ⟨rfl, e, he, hword⟩ := entity_ampersand hentity
        refine ⟨e, he, cs.flatMap entity, ?_⟩
        rw [← hword, hentity, hafter]
        rfl
    · exact ih ⟨before, hrest.symm⟩

end Encoding

section Decoding

theorem readEntities_word (h : (c, word) ∈ table) (rest : List Char) :
    readEntities (word.toList ++ rest) = c :: readEntities rest := by
  simp only [table, List.mem_cons, List.not_mem_nil, or_false, Prod.mk.injEq] at h
  rcases h with ⟨rfl, rfl⟩ | ⟨rfl, rfl⟩ | ⟨rfl, rfl⟩ | ⟨rfl, rfl⟩ | ⟨rfl, rfl⟩ <;> rfl

theorem readEntities_cons (h : c ≠ '&') (rest : List Char) :
    readEntities (c :: rest) = c :: readEntities rest := by
  rw [readEntities]
  all_goals exact fun _ hc => absurd hc h

theorem readEntities_entity (c : Char) (rest : List Char) :
    readEntities (entity c ++ rest) = c :: readEntities rest := by
  rcases entity_cases c with ⟨word, hword, hentity⟩ | ⟨hne, hentity⟩
  · rw [hentity, readEntities_word hword]
  · have hc : c ≠ '&' := (hne ('&', "&amp;") (by decide)).symm
    rw [hentity, List.singleton_append, readEntities_cons hc]

theorem readEntities_flatMap (cs : List Char) : readEntities (cs.flatMap entity) = cs := by
  induction cs with
  | nil => rfl
  | cons c cs ih => rw [List.flatMap_cons, readEntities_entity, ih]

theorem decode_encode (s : String) : decode (encode s) = s := by
  rw [decode, encode_toList, readEntities_flatMap, String.ofList_toList]

end Decoding

/-- Encoded text holds none of the other characters that have entities, and its ampersands begin
entities. It is the text with every character replaced at once, it decodes to the text, and no other
text is encoded as it is. -/
theorem encode_faithful (s : String) :
    (∀ c ∈ ['<', '>', '"', '\x27'], c ∉ (encode s).toList) ∧
      (∀ after, '&' :: after <:+ (encode s).toList → ∃ e ∈ table, e.2.toList <+: '&' :: after) ∧
      (encode s).toList = s.toList.flatMap entity ∧ decode (encode s) = s ∧
      ∀ t, encode t = encode s → t = s := by
  refine ⟨fun c hc => not_mem_encode s hc, fun after h => ?_, encode_toList s, decode_encode s,
    fun t h => ?_⟩
  · rw [encode_toList] at h
    exact ampersand_begins h
  · rw [← decode_encode t, h, decode_encode]

theorem encode_faithful_entity :
    let s := "&lt;<"
    encode s = "&amp;lt;&lt;" ∧ '<' ∉ (encode s).toList ∧
      (∃ e ∈ table, e.2.toList <+: ['&', 'l', 't', ';']) ∧ decode (encode s) = s ∧
      ∀ t, encode t = encode s → t = s := by
  intro s
  have hencode : encode s = "&amp;lt;&lt;" := by decide
  obtain ⟨hfree, hbegins, -, hdecode, hunique⟩ := encode_faithful s
  refine ⟨hencode, hfree '<' (by decide), hbegins ['l', 't', ';'] ?_, hdecode, hunique⟩
  rw [hencode]
  exact ⟨"&amp;lt;".toList, by decide⟩

end FlowCanvas.Entity
