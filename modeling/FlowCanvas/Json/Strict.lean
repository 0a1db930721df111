import FlowCanvas.Json.Spelling
import FlowCanvas.Json.Token

/-!
The strict grammar of JSON texts: four characters of white space, keys and strings in double quotes,
no comma before the end of a container. A text is first cut into tokens; from where it cannot be cut
on, there is one stray token.
-/

namespace FlowCanvas.Json.Strict

def isSpace (c : Char) : Bool := c = ' ' ∨ c = '\n' ∨ c = '\t' ∨ c = '\r'

def escaped? : Char → Option Char
  | '"' => some '"'
  | '\\' => some '\\'
  | '/' => some '/'
  | 'b' => some '\x08'
  | 'f' => some '\x0c'
  | 'n' => some '\n'
  | 'r' => some '\r'
  | 't' => some '\t'
  | _ => none

def addPiece (p : Piece) : Option (List Piece × List Char) → Option (List Piece × List Char)
  | some (ps, rest) => some (p :: ps, rest)
  | none => none

def string? : List Char → Option (List Piece × List Char)
  | [] => none
  | '"' :: cs => some ([], cs)
  | '\\' :: 'u' :: a :: b :: c :: d :: cs =>
    match hexNumber? [a, b, c, d] with
    | some u => addPiece (.unit u) (string? cs)
    | none => none
  | '\\' :: c :: cs =>
    match escaped? c with
    | some e => addPiece (.char e) (string? cs)
    | none => none
  | c :: cs => if c.toNat < 0x20 then none else addPiece (.char c) (string? cs)

def exponent? : List Char → Option (Option (Bool × List Char) × List Char)
  | [] => some (none, [])
  | c :: cs =>
    if c = 'e' ∨ c = 'E' then
      let (negative, rest) := Literal.sign cs
      let (ds, rest) := Literal.digitRun rest
      if ds = [] then none else some (some (negative, ds), rest)
    else some (none, c :: cs)

def places? : List Char → Option (Option (List Char) × List Char)
  | '.' :: cs =>
    let (ds, rest) := Literal.digitRun cs
    if ds = [] then none else some (some ds, rest)
  | cs => some (none, cs)

def whole? (cs : List Char) : Option (List Char × List Char) :=
  let (ds, rest) := Literal.digitRun cs
  match ds with
  | [] => none
  | ['0'] => some (ds, rest)
  | '0' :: _ => none
  | _ => some (ds, rest)

def minus : List Char → Bool × List Char
  | '-' :: cs => (true, cs)
  | cs => (false, cs)

def numeral? (cs : List Char) : Option (Numeral × List Char) :=
  let (negative, cs) := minus cs
  (whole? cs).bind fun (whole, cs) =>
    (places? cs).bind fun (places, cs) =>
      (exponent? cs).map fun (exponent, cs) => (⟨negative, whole, places, exponent⟩, cs)

def token? : List Char → Option (Token × List Char)
  | '[' :: cs => some (.openArray, cs)
  | ']' :: cs => some (.closeArray, cs)
  | '\x7b' :: cs => some (.openObject, cs)
  | '\x7d' :: cs => some (.closeObject, cs)
  | ',' :: cs => some (.comma, cs)
  | ':' :: cs => some (.colon, cs)
  | 'n' :: 'u' :: 'l' :: 'l' :: cs => some (.scalar .null, cs)
  | 't' :: 'r' :: 'u' :: 'e' :: cs => some (.scalar (.bool true), cs)
  | 'f' :: 'a' :: 'l' :: 's' :: 'e' :: cs => some (.scalar (.bool false), cs)
  | '"' :: cs => (string? cs).map fun (ps, rest) => (.text (spelled? .exact ps), rest)
  | cs => (numeral? cs).map fun (n, rest) => (.scalar (ofNumber n.strict?), rest)

theorem addPiece_length {p : Piece} {r : Option (List Piece × List Char)} {ps : List Piece}
    {rest : List Char} (h : addPiece p r = some (ps, rest)) : ∃ qs, r = some (qs, rest) := by
  unfold addPiece at h
  split at h
  · simp only [Option.some.injEq, Prod.mk.injEq] at h
    exact ⟨_, by rw [h.2]⟩
  · simp at h

theorem string?_length {cs rest : List Char} {ps : List Piece}
    (h : string? cs = some (ps, rest)) : rest.length < cs.length := by
  fun_induction string? cs generalizing ps with
  | case1 => simp at h
  | case2 cs => simp at h; simp [h.2]
  | case3 a b c d cs u hu ih =>
    obtain ⟨qs, hq⟩ := addPiece_length h
    have := ih hq
    simp only [List.length_cons]; omega
  | case4 => simp at h
  | case5 c cs hn e he ih =>
    obtain ⟨qs, hq⟩ := addPiece_length h
    have := ih hq
    simp only [List.length_cons]; omega
  | case6 => simp at h
  | case7 => simp at h
  | case8 c cs h1 h2 h3 h4 ih =>
    obtain ⟨qs, hq⟩ := addPiece_length h
    have := ih hq
    simp only [List.length_cons]; omega

theorem exponent?_length {cs rest : List Char} {e : Option (Bool × List Char)}
    (h : exponent? cs = some (e, rest)) : rest.length ≤ cs.length := by
  cases cs with
  | nil => simp [exponent?] at h; simp [h.2]
  | cons c cs =>
    have hs : (Literal.sign cs).2.length ≤ cs.length := by
      unfold Literal.sign; split <;> simp
    have := Literal.digitRun_length (Literal.sign cs).2
    simp only [exponent?] at h
    split at h
    · split at h
      · simp at h
      · simp only [Option.some.injEq, Prod.mk.injEq] at h
        rw [← h.2]; simp only [List.length_cons]; omega
    · simp only [Option.some.injEq, Prod.mk.injEq] at h
      simp [← h.2]

theorem places?_length {cs rest : List Char} {ds : Option (List Char)}
    (h : places? cs = some (ds, rest)) : rest.length ≤ cs.length := by
  unfold places? at h
  split at h
  · rename_i cs
    have := Literal.digitRun_length cs
    dsimp only at h
    split at h
    · simp at h
    · simp only [Option.some.injEq, Prod.mk.injEq] at h
      rw [← h.2]; simp only [List.length_cons]; omega
  · simp only [Option.some.injEq, Prod.mk.injEq] at h
    simp [h.2]

theorem whole?_length {cs rest ds : List Char}
    (h : whole? cs = some (ds, rest)) : rest.length < cs.length := by
  have hl := Literal.digitRun_length cs
  unfold whole? at h
  dsimp only at h
  have hr : (Literal.digitRun cs).1 ≠ [] ∧ (Literal.digitRun cs).2 = rest := by
    split at h
    · exact absurd h nofun
    · rename_i hd
      exact ⟨hd ▸ nofun, (Prod.mk.inj (Option.some.inj h)).2⟩
    · exact absurd h nofun
    · rename_i hne _ _
      exact ⟨hne, (Prod.mk.inj (Option.some.inj h)).2⟩
  have hpos := List.length_pos_iff.2 hr.1
  rw [← hr.2]
  omega

theorem numeral?_length {cs rest : List Char} {n : Numeral}
    (h : numeral? cs = some (n, rest)) : rest.length < cs.length := by
  have hm : (minus cs).2.length ≤ cs.length := by unfold minus; split <;> simp
  simp only [numeral?, Option.bind_eq_some_iff, Option.map_eq_some_iff, Prod.exists,
    Prod.mk.injEq] at h
  obtain ⟨whole, c1, h1, places, c2, h2, exponent, c3, h3, -, rfl⟩ := h
  have := whole?_length h1
  have := places?_length h2
  have := exponent?_length h3
  omega

theorem token?_length {cs rest : List Char} {t : Token}
    (h : token? cs = some (t, rest)) : rest.length < cs.length := by
  unfold token? at h
  split at h
  all_goals try
    simp only [Option.some.injEq, Prod.mk.injEq] at h
    simp only [List.length_cons, ← h.2]
    omega
  · simp only [Option.map_eq_some_iff, Prod.exists, Prod.mk.injEq] at h
    obtain ⟨ps, r, h, -, rfl⟩ := h
    have := string?_length h
    simp only [List.length_cons]; omega
  · simp only [Option.map_eq_some_iff, Prod.exists, Prod.mk.injEq] at h
    obtain ⟨n, r, h, -, rfl⟩ := h
    exact numeral?_length h

def lex (cs : List Char) : List Token :=
  match _hd : cs.dropWhile isSpace with
  | [] => []
  | d :: ds =>
    match _ht : token? (d :: ds) with
    | none => [.stray]
    | some (t, rest) => t :: lex rest
termination_by cs.length
decreasing_by
  have hl := token?_length _ht
  have : (cs.dropWhile isSpace).length ≤ cs.length := (List.dropWhile_suffix isSpace).length_le
  rw [_hd] at this
  omega

def value? (cs : List Char) : Option (Json × List Token) := assemble? false (lex cs)

end FlowCanvas.Json.Strict
