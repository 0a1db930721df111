import FlowCanvas.Proofs.Json.Assembly
import FlowCanvas.Proofs.Json.Canonical
import FlowCanvas.Proofs.Json.Digits
import FlowCanvas.Proofs.Json.Quote
import FlowCanvas.Text.Blank

/-! Values read back. Every token of a written value is cut off the text where it ends, so the value
is read back as it is but for its numbers, each of which becomes what its numeral stands for. -/

namespace FlowCanvas.Json

mutual

/-- What is read where a value was written. A number that no numeral stands for becomes null. -/
def reread : Json → Json
  | .number n => (n.reread?.map Json.number).getD .null
  | .array items => .array (rereadItems items)
  | .object fields => .object (rereadFields fields)
  | .unreadable => .null
  | j => j

def rereadItems : List Json → List Json
  | [] => []
  | j :: js => j.reread :: rereadItems js

def rereadFields : List (String × Json) → List (String × Json)
  | [] => []
  | (k, j) :: fs => (k, j.reread) :: rereadFields fs

end

mutual

/-- The same, but for a number whose numeral is out of range: what is read there has no value. -/
def echo : Json → Json
  | .number n => n.echo
  | .array items => .array (echoItems items)
  | .object fields => .object (echoFields fields)
  | .unreadable => .null
  | j => j

def echoItems : List Json → List Json
  | [] => []
  | j :: js => j.echo :: echoItems js

def echoFields : List (String × Json) → List (String × Json)
  | [] => []
  | (k, j) :: fs => (k, j.echo) :: echoFields fs

end

def Legible (ns : List Number) : Prop :=
  ∀ n ∈ ns, n.reread?.isSome = true ∨ writeNumber n = "null".toList

theorem legible_append {ns ms : List Number} : Legible (ns ++ ms) ↔ Legible ns ∧ Legible ms := by
  simp only [Legible, List.mem_append, or_imp, forall_and]

mutual

theorem echo_of_legible : ∀ {j : Json}, Legible j.numbers → j.echo = j.reread
  | .null, _ => rfl
  | .bool _, _ => rfl
  | .number n, h => by
    rw [echo, reread]
    rcases h n List.mem_cons_self with hsome | hnull
    · obtain ⟨k, hk⟩ := Option.isSome_iff_exists.mp hsome
      rw [hk, Number.echo_of_reread? hk]
      rfl
    · rw [Number.echo, Number.reread?, hnull]
      rfl
  | .text _, _ => rfl
  | .array _, h => congrArg Json.array (echoItems_of_legible h)
  | .object _, h => congrArg Json.object (echoFields_of_legible h)
  | .unreadable, _ => rfl

theorem echoItems_of_legible : ∀ {js : List Json}, Legible (itemNumbers js) →
    echoItems js = rereadItems js
  | [], _ => rfl
  | j :: js, h => by
    obtain ⟨hj, hjs⟩ := legible_append.mp h
    rw [echoItems, rereadItems, echo_of_legible hj, echoItems_of_legible hjs]

theorem echoFields_of_legible : ∀ {fs : List (String × Json)}, Legible (fieldNumbers fs) →
    echoFields fs = rereadFields fs
  | [], _ => rfl
  | (k, j) :: fs, h => by
    obtain ⟨hj, hfs⟩ := legible_append.mp h
    rw [echoFields, rereadFields, echo_of_legible hj, echoFields_of_legible hfs]

end

theorem rereadFields_eq_map (fs : List (String × Json)) :
    rereadFields fs = fs.map (Prod.map id reread) := by
  induction fs with
  | nil => rfl
  | cons f fs ih => rw [rereadFields, ih, List.map_cons]; rfl

mutual

theorem isReadable_reread : ∀ j : Json, j.reread.isReadable = true
  | .null => rfl
  | .bool _ => rfl
  | .number n => by
    rw [reread]
    cases n.reread? <;> rfl
  | .text _ => rfl
  | .array items => itemsReadable_rereadItems items
  | .object fields => fieldsReadable_rereadFields fields
  | .unreadable => rfl

theorem itemsReadable_rereadItems : ∀ js : List Json, itemsReadable (rereadItems js) = true
  | [] => rfl
  | j :: js => by
    rw [rereadItems, itemsReadable, isReadable_reread j, itemsReadable_rereadItems js, Bool.and_self]

theorem fieldsReadable_rereadFields :
    ∀ fs : List (String × Json), fieldsReadable (rereadFields fs) = true
  | [] => rfl
  | (_, j) :: fs => by
    rw [rereadFields, fieldsReadable, isReadable_reread j, fieldsReadable_rereadFields fs,
      Bool.and_self]

end

mutual

theorem depth_reread : ∀ j : Json, j.reread.depth = j.depth
  | .null => rfl
  | .bool _ => rfl
  | .number n => by
    rw [reread]
    cases n.reread? <;> rfl
  | .text _ => rfl
  | .array items => congrArg (· + 1) (itemsDepth_rereadItems items)
  | .object fields => congrArg (· + 1) (fieldsDepth_rereadFields fields)
  | .unreadable => rfl

theorem itemsDepth_rereadItems : ∀ js : List Json, itemsDepth (rereadItems js) = itemsDepth js
  | [] => rfl
  | j :: js => by
    rw [rereadItems, itemsDepth, depth_reread j, itemsDepth_rereadItems js, itemsDepth]

theorem fieldsDepth_rereadFields :
    ∀ fs : List (String × Json), fieldsDepth (rereadFields fs) = fieldsDepth fs
  | [] => rfl
  | (_, j) :: fs => by
    rw [rereadFields, fieldsDepth, depth_reread j, fieldsDepth_rereadFields fs, fieldsDepth]

end

namespace Strict

variable {cs rest tail : List Char}

theorem isBlank_of_isSpace {c : Char} (h : isSpace c = true) : Blank.isBlank c = true := by
  simp only [isSpace, decide_eq_true_eq] at h
  rcases h with rfl | rfl | rfl | rfl <;> decide

theorem isDigit_of_isBlank {c : Char} (h : Blank.isBlank c = true) : c.isDigit = false := by
  have hrange : c.toNat < 48 ∨ 57 < c.toNat := by
    simp only [Blank.isBlank, decide_eq_true_eq] at h
    omega
  have hdigits : '0'.toNat = 48 ∧ '9'.toNat = 57 := ⟨rfl, rfl⟩
  rw [Bool.eq_false_iff, ne_eq, Char.isDigit_iff_toNat]
  omega

theorem token?_blank {c : Char} (h : Blank.isBlank c = true) : token? (c :: cs) = none := by
  have hnumeral : numeral? (c :: cs) = none := by
    cases hn : numeral? (c :: cs) with
    | none => rfl
    | some r =>
      rcases numeral?_head hn with rfl | hdigit
      · exact absurd h (by decide)
      · rw [isDigit_of_isBlank h] at hdigit
        cases hdigit
  unfold token?
  split
  case h_11 => rw [hnumeral, Option.map_none]
  all_goals
    rename_i heq
    obtain ⟨rfl, -⟩ := List.cons.inj heq
    exact absurd h (by decide)

theorem lex_of_blank (h : cs.dropWhile isSpace = []) : lex cs = [] := by
  rw [lex]
  split
  · rfl
  · rename_i hcons
    rw [h] at hcons
    cases hcons

theorem lex_of_stray {c : Char} (hcons : cs.dropWhile isSpace = c :: tail)
    (h : token? (c :: tail) = none) : lex cs = [.stray] := by
  rw [lex]
  split
  · rename_i hnil
    rw [hnil] at hcons
    cases hcons
  · rename_i hcons'
    rw [← hcons', hcons, h]

theorem lex_of_start {t : Token} (h : token? (cs.dropWhile isSpace) = some (t, rest)) :
    lex cs = t :: lex rest := by
  rw [lex]
  split
  · rename_i hnil
    rw [hnil] at h
    cases h
  · rename_i hcons
    rw [← hcons]
    split
    · rename_i hnone
      rw [h] at hnone
      cases hnone
    · rename_i hsome
      rw [h] at hsome
      cases hsome
      rfl

theorem lex_congr {cs' : List Char} (h : cs.dropWhile isSpace = cs'.dropWhile isSpace) :
    lex cs = lex cs' := by
  cases hstart : cs'.dropWhile isSpace with
  | nil => rw [lex_of_blank hstart, lex_of_blank (h.trans hstart)]
  | cons c tail =>
    cases ht : token? (c :: tail) with
    | none => rw [lex_of_stray hstart ht, lex_of_stray (h.trans hstart) ht]
    | some r =>
      have hr : token? (cs'.dropWhile isSpace) = some (r.1, r.2) := by rw [hstart, ht]
      rw [lex_of_start hr, lex_of_start (h ▸ hr)]

theorem lex_of_token? {t : Token} (h : token? cs = some (t, rest)) : lex cs = t :: lex rest := by
  have hstart : cs.dropWhile isSpace = cs := by
    cases cs with
    | nil => rfl
    | cons c cs =>
      cases hc : isSpace c with
      | true => rw [token?_blank (isBlank_of_isSpace hc)] at h; cases h
      | false => rw [List.dropWhile_cons, hc, if_neg Bool.false_ne_true]
  exact lex_of_start (hstart.symm ▸ h)

theorem value?_blank (h : ∀ c ∈ cs, Blank.isBlank c = true) : value? cs = none := by
  have hlex : lex cs = [] ∨ lex cs = [.stray] := by
    cases hstart : cs.dropWhile isSpace with
    | nil => exact .inl (lex_of_blank hstart)
    | cons c tail =>
      have hmem : c ∈ cs.dropWhile isSpace := hstart ▸ List.mem_cons_self
      have hblank := h c ((List.dropWhile_suffix isSpace).subset hmem)
      exact .inr (lex_of_stray hstart (token?_blank hblank))
  rcases hlex with hlex | hlex
  · rw [value?, hlex]
    rfl
  · rw [value?, hlex]
    rfl

theorem lex_nil : lex [] = [] := lex_of_blank rfl

section Punctuation

variable (cs : List Char)

theorem lex_openArray : lex ('[' :: cs) = .openArray :: lex cs := lex_of_token? rfl

theorem lex_closeArray : lex (']' :: cs) = .closeArray :: lex cs := lex_of_token? rfl

theorem lex_openObject : lex ('\x7b' :: cs) = .openObject :: lex cs := lex_of_token? rfl

theorem lex_closeObject : lex ('\x7d' :: cs) = .closeObject :: lex cs := lex_of_token? rfl

theorem lex_comma : lex (',' :: cs) = .comma :: lex cs := lex_of_token? rfl

theorem lex_colon : lex (':' :: cs) = .colon :: lex cs := lex_of_token? rfl

end Punctuation

theorem lex_key (k : String) (cs : List Char) :
    lex (quote k ++ ':' :: cs) = .text (some k) :: .colon :: lex cs := by
  rw [lex_of_token? (token?_quote k (':' :: cs)), lex_colon]

mutual

theorem lex_tokens (j : Json) (rest : List Char) (hr : Ends rest) :
    lex (j.tokens.flatMap Token.write ++ rest) = j.echo.tokens ++ lex rest := by
  match j with
  | .null => exact lex_of_token? rfl
  | .bool true => exact lex_of_token? rfl
  | .bool false => exact lex_of_token? rfl
  | .unreadable => exact lex_of_token? rfl
  | .number n =>
    rw [echo, n.tokens_echo, tokens, List.flatMap_singleton]
    · exact lex_of_token? (n.token?_writeNumber hr)
    all_goals nofun
  | .text s =>
    rw [tokens, List.flatMap_singleton]
    exact lex_of_token? (token?_quote s rest)
  | .array items =>
    rw [tokens, List.flatMap_cons, List.append_assoc, echo, tokens, List.cons_append,
      ← lex_itemTokens items rest]
    exact lex_openArray _
  | .object fields =>
    rw [tokens, List.flatMap_cons, List.append_assoc, echo, tokens, List.cons_append,
      ← lex_fieldTokens fields rest]
    exact lex_openObject _

theorem lex_itemTokens (js : List Json) (rest : List Char) :
    lex ((itemTokens js).flatMap Token.write ++ rest) = itemTokens (echoItems js) ++ lex rest := by
  match js with
  | [] => exact lex_closeArray rest
  | [j] =>
    have hitem := lex_tokens j (']' :: rest) (.cons (by decide) rest)
    rw [lex_closeArray] at hitem
    simpa only [itemTokens, echoItems, List.flatMap_append, List.flatMap_singleton, Token.write,
      List.append_assoc, List.singleton_append] using hitem
  | j :: j' :: js =>
    have hitem := lex_tokens j (',' :: ((itemTokens (j' :: js)).flatMap Token.write ++ rest))
      (.cons (by decide) _)
    rw [lex_comma, lex_itemTokens (j' :: js) rest] at hitem
    simpa only [itemTokens, echoItems, List.flatMap_append, List.flatMap_cons, Token.write,
      List.append_assoc, List.cons_append, List.nil_append] using hitem

theorem lex_fieldTokens (fs : List (String × Json)) (rest : List Char) :
    lex ((fieldTokens fs).flatMap Token.write ++ rest) =
      fieldTokens (echoFields fs) ++ lex rest := by
  match fs with
  | [] => exact lex_closeObject rest
  | [(k, j)] =>
    have hvalue := lex_tokens j ('\x7d' :: rest) (.cons (by decide) rest)
    rw [lex_closeObject] at hvalue
    have hfield := lex_key k (j.tokens.flatMap Token.write ++ '\x7d' :: rest)
    rw [hvalue] at hfield
    simpa only [fieldTokens, echoFields, List.flatMap_append, List.flatMap_cons,
      List.flatMap_nil, Token.write, List.append_assoc, List.cons_append, List.nil_append]
      using hfield
  | (k, j) :: f :: fs =>
    have hvalue := lex_tokens j (',' :: ((fieldTokens (f :: fs)).flatMap Token.write ++ rest))
      (.cons (by decide) _)
    rw [lex_comma, lex_fieldTokens (f :: fs) rest] at hvalue
    have hfield := lex_key k (j.tokens.flatMap Token.write ++
      ',' :: ((fieldTokens (f :: fs)).flatMap Token.write ++ rest))
    rw [hvalue] at hfield
    simpa only [fieldTokens, echoFields, List.flatMap_append, List.flatMap_cons, Token.write,
      List.append_assoc, List.cons_append, List.nil_append] using hfield

end

theorem value?_of_lex {j : Json} (h : lex cs = j.tokens) : value? cs = some (j, []) := by
  have hassemble := assemble?_tokens false j []
  rw [List.append_nil] at hassemble
  rw [value?, h, hassemble]

theorem lex_compact (j : Json) : lex j.compact = j.echo.tokens := by
  have hlex := lex_tokens j [] .nil
  rwa [List.append_nil, lex_nil, List.append_nil] at hlex

theorem value?_compact {j : Json} (h : Legible j.numbers) :
    value? j.compact = some (j.reread, []) := by
  rw [← echo_of_legible h]
  exact value?_of_lex (lex_compact j)

end Strict

end FlowCanvas.Json
