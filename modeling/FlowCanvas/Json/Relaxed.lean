import FlowCanvas.Json.Spelling
import FlowCanvas.Json.Token
import FlowCanvas.Text.Identifier

/-!
The relaxed grammar of JSON texts, for documents written by hand: comments, more white space, bare
words as keys, strings in either quote, a comma before the end of a container, and numerals with a
plus sign, a bare point, hexadecimal digits or a name.
-/

namespace FlowCanvas.Json.Relaxed

def isTerminator (c : Char) : Bool := c = '\n' ∨ c = '\r' ∨ c = '\u2028' ∨ c = '\u2029'

def isSpace (c : Char) : Bool :=
  let n := c.toNat
  isTerminator c || n = 0x09 || n = 0x0B || n = 0x0C || n = 0x20 || n = 0xA0 || n = 0xFEFF ||
    n = 0x1680 || (0x2000 ≤ n && n ≤ 0x200A) || n = 0x202F || n = 0x205F || n = 0x3000

def afterComment : List Char → Option (List Char)
  | [] => none
  | '*' :: '/' :: cs => some cs
  | _ :: cs => afterComment cs

def escaped? (c : Char) : Option Char :=
  match c with
  | 'b' => some '\x08'
  | 'f' => some '\x0c'
  | 'n' => some '\n'
  | 'r' => some '\r'
  | 't' => some '\t'
  | 'v' => some '\x0b'
  | '0' => some '\x00'
  | 'x' => none
  | 'u' => none
  | c => if c.isDigit then none else some c

def addPiece (p : Piece) (r : List Piece × List Char) : List Piece × List Char := (p :: r.1, r.2)

/-- The rest of a string after its opening quote, and what follows the closing one. A backslash
before the end of a line continues the string on the next line. -/
def string? (quote : Char) : List Char → Option (List Piece × List Char)
  | [] => none
  | '\\' :: 'u' :: a :: b :: c :: d :: cs =>
    match hexNumber? [a, b, c, d] with
    | some u => (string? quote cs).map (addPiece (.unit u))
    | none => none
  | '\\' :: 'x' :: a :: b :: cs =>
    match hexNumber? [a, b] with
    | some n => (string? quote cs).map (addPiece (.char (Char.ofNat n)))
    | none => none
  | '\\' :: '\r' :: '\n' :: cs => string? quote cs
  | '\\' :: c :: cs =>
    if isTerminator c then string? quote cs
    else
      match escaped? c with
      | some e => (string? quote cs).map (addPiece (.char e))
      | none => none
  | c :: cs =>
    if c = quote then some ([], cs)
    else if c = '\\' ∨ isTerminator c then none
    else (string? quote cs).map (addPiece (.char c))

def wordTail : List Char → List Piece × List Char
  | [] => ([], [])
  | '\\' :: 'u' :: a :: b :: c :: d :: cs =>
    match hexNumber? [a, b, c, d] with
    | some u => addPiece (.unit u) (wordTail cs)
    | none => ([], '\\' :: 'u' :: a :: b :: c :: d :: cs)
  | c :: cs => if Identifier.isPart c then addPiece (.char c) (wordTail cs) else ([], c :: cs)

def word? : List Char → Option (List Piece × List Char)
  | '\\' :: 'u' :: a :: b :: c :: d :: cs =>
    (hexNumber? [a, b, c, d]).map fun u => addPiece (.unit u) (wordTail cs)
  | c :: cs => if Identifier.isStart c then some (addPiece (.char c) (wordTail cs)) else none
  | [] => none

def isPlain : Piece → Bool
  | .char _ => true
  | .unit _ => false

/-- Digits without a needless leading zero: after a zero the whole part is over. -/
def whole : List Char → List Char × List Char
  | '0' :: cs => (['0'], cs)
  | cs => Literal.digitRun cs

def places : List Char → Option (List Char) × List Char
  | '.' :: cs => let (ds, rest) := Literal.digitRun cs; (some ds, rest)
  | cs => (none, cs)

def exponent : List Char → Option (Bool × List Char) × List Char
  | [] => (none, [])
  | c :: cs =>
    let (negative, body) := Literal.sign cs
    let (ds, rest) := Literal.digitRun body
    if (c = 'e' ∨ c = 'E') ∧ ds ≠ [] then (some (negative, ds), rest) else (none, c :: cs)

def decimal? (negative : Bool) (cs : List Char) : Option (Json × List Char) :=
  let (ds, cs) := whole cs
  let (ps, cs) := places cs
  let (e, cs) := exponent cs
  if ds = [] ∧ (ps.getD []) = [] then none
  else some (ofNumber (Numeral.relaxed? ⟨negative, ds, ps, e⟩), cs)

def isHexDigit (c : Char) : Bool := (hexValue? c).isSome

def hexadecimal? (cs : List Char) : Option (Json × List Char) :=
  match cs.takeWhile isHexDigit, cs.dropWhile isHexDigit with
  | [], _ => none
  | ds, rest =>
    match hexNumber? ds with
    | some n => some (if n < 0x100000000 then .number (.integer n) else .unreadable, rest)
    | none => none

/-- A numeral after a sign. Only decimals may have a plus sign, and hexadecimal digits no sign. -/
def signed? (negative : Bool) : List Char → Option (Json × List Char)
  | 'I' :: 'n' :: 'f' :: 'i' :: 'n' :: 'i' :: 't' :: 'y' :: cs =>
    some (if negative then .number (.double (-1 / 0)) else .unreadable, cs)
  | 'N' :: 'a' :: 'N' :: cs => some (if negative then .number (.double (0 / 0)) else .unreadable, cs)
  | cs => decimal? negative cs

def number? : List Char → Option (Json × List Char)
  | '-' :: cs => signed? true cs
  | '+' :: cs => signed? false cs
  | '0' :: 'x' :: cs => hexadecimal? cs
  | '0' :: 'X' :: cs => hexadecimal? cs
  | cs => decimal? false cs

def spelling? (ps : List Piece) : Option String := spelled? .overlaid ps

def piece? : List Char → Option (Option Token × List Char)
  | [] => none
  | '[' :: cs => some (some .openArray, cs)
  | ']' :: cs => some (some .closeArray, cs)
  | '\x7b' :: cs => some (some .openObject, cs)
  | '\x7d' :: cs => some (some .closeObject, cs)
  | ',' :: cs => some (some .comma, cs)
  | ':' :: cs => some (some .colon, cs)
  | '/' :: '*' :: cs => (afterComment cs).map fun rest => (none, rest)
  | '/' :: '/' :: cs => some (none, cs.dropWhile fun c => !isTerminator c)
  | '"' :: cs => (string? '"' cs).map fun (ps, rest) => (some (.text (spelling? ps)), rest)
  | '\x27' :: cs => (string? '\x27' cs).map fun (ps, rest) => (some (.text (spelling? ps)), rest)
  | c :: cs =>
    if isSpace c then some (none, cs)
    else
      match word? (c :: cs) with
      | some (ps, rest) => some (some (.word (ps.all isPlain) (spelling? ps)), rest)
      | none => (number? (c :: cs)).map fun (j, rest) => (some (.scalar j), rest)

theorem afterComment_length {cs rest : List Char} (h : afterComment cs = some rest) :
    rest.length ≤ cs.length := by
  fun_induction afterComment cs with
  | case1 => simp at h
  | case2 cs => simp at h; simp [h]; omega
  | case3 c cs _ ih => have := ih h; simp only [List.length_cons]; omega

theorem string?_length {quote : Char} {cs rest : List Char} {ps : List Piece}
    (h : string? quote cs = some (ps, rest)) : rest.length ≤ cs.length := by
  fun_induction string? quote cs generalizing ps with
  | case1 => simp at h
  | case2 a b c d cs u hu ih =>
    obtain ⟨⟨qs, r⟩, hq, he⟩ := Option.map_eq_some_iff.1 h
    simp only [addPiece, Prod.mk.injEq] at he
    have := ih (hq.trans (by rw [he.2]))
    simp only [List.length_cons]; omega
  | case3 => simp at h
  | case4 a b cs n hn ih =>
    obtain ⟨⟨qs, r⟩, hq, he⟩ := Option.map_eq_some_iff.1 h
    simp only [addPiece, Prod.mk.injEq] at he
    have := ih (hq.trans (by rw [he.2]))
    simp only [List.length_cons]; omega
  | case5 => simp at h
  | case6 cs ih => have := ih h; simp only [List.length_cons]; omega
  | case7 c cs _ _ _ _ ih => have := ih h; simp only [List.length_cons]; omega
  | case8 c cs _ _ _ _ e he ih =>
    obtain ⟨⟨qs, r⟩, hq, he⟩ := Option.map_eq_some_iff.1 h
    simp only [addPiece, Prod.mk.injEq] at he
    have := ih (hq.trans (by rw [he.2]))
    simp only [List.length_cons]; omega
  | case9 => simp at h
  | case10 => simp at h; simp [h.2]
  | case11 => simp at h
  | case12 c cs _ _ _ _ _ _ ih =>
    obtain ⟨⟨qs, r⟩, hq, he⟩ := Option.map_eq_some_iff.1 h
    simp only [addPiece, Prod.mk.injEq] at he
    have := ih (hq.trans (by rw [he.2]))
    simp only [List.length_cons]; omega

theorem wordTail_length (cs : List Char) : (wordTail cs).2.length ≤ cs.length := by
  fun_induction wordTail cs with
  | case1 => simp
  | case2 a b c d cs u hu ih => simp only [addPiece, List.length_cons]; omega
  | case3 => simp
  | case4 c cs _ _ ih => simp only [addPiece, List.length_cons]; omega
  | case5 => simp

theorem word?_length {cs rest : List Char} {ps : List Piece} (h : word? cs = some (ps, rest)) :
    rest.length < cs.length := by
  unfold word? at h
  split at h
  · rename_i a b c d cs
    obtain ⟨u, -, he⟩ := Option.map_eq_some_iff.1 h
    have := wordTail_length cs
    simp only [addPiece, Prod.mk.injEq] at he
    rw [← he.2]; simp only [List.length_cons]; omega
  · rename_i c cs _
    split at h
    · have := wordTail_length cs
      simp only [addPiece, Option.some.injEq, Prod.mk.injEq] at h
      rw [← h.2]; simp only [List.length_cons]; omega
    · simp at h
  · simp at h

theorem sign_length (cs : List Char) : (Literal.sign cs).2.length ≤ cs.length := by
  unfold Literal.sign; split <;> simp

theorem exponent_length (cs : List Char) : (exponent cs).2.length ≤ cs.length := by
  cases cs with
  | nil => simp [exponent]
  | cons c cs =>
    have h1 := sign_length cs
    have h2 := Literal.digitRun_length (Literal.sign cs).2
    simp only [exponent]
    split <;> simp only [List.length_cons] <;> omega

theorem places_length (cs : List Char) : (places cs).2.length ≤ cs.length ∧
    ((places cs).1.getD [] ≠ [] → (places cs).2.length < cs.length) := by
  unfold places
  split
  · rename_i cs
    have := Literal.digitRun_length cs
    constructor
    · simp only [List.length_cons]; omega
    · intro _; simp only [List.length_cons]; omega
  · simp

theorem whole_length (cs : List Char) : (whole cs).2.length ≤ cs.length ∧
    ((whole cs).1 ≠ [] → (whole cs).2.length < cs.length) := by
  unfold whole
  split
  · simp
  · have := Literal.digitRun_length cs
    refine ⟨by omega, fun h => ?_⟩
    have := List.length_pos_iff.2 h
    omega

theorem decimal?_length {negative : Bool} {cs rest : List Char} {j : Json}
    (h : decimal? negative cs = some (j, rest)) : rest.length < cs.length := by
  simp only [decimal?] at h
  split at h
  · simp at h
  · rename_i hne
    simp only [Option.some.injEq, Prod.mk.injEq] at h
    have h1 := whole_length cs
    have h2 := places_length (whole cs).2
    have h3 := exponent_length (places (whole cs).2).2
    rw [← h.2]
    by_cases hw : (whole cs).1 = []
    · have := h2.2 (fun hp => hne ⟨hw, hp⟩); omega
    · have := h1.2 hw; omega

theorem hexadecimal?_length {cs rest : List Char} {j : Json}
    (h : hexadecimal? cs = some (j, rest)) : rest.length ≤ cs.length := by
  have hl := (List.dropWhile_suffix isHexDigit (l := cs)).length_le
  unfold hexadecimal? at h
  split at h
  · simp at h
  · rename_i hd
    split at h
    · simp only [Option.some.injEq, Prod.mk.injEq] at h
      rw [← h.2]
      exact hl
    · simp at h

theorem signed?_length {negative : Bool} {cs rest : List Char} {j : Json}
    (h : signed? negative cs = some (j, rest)) : rest.length < cs.length := by
  unfold signed? at h
  split at h
  · simp only [Option.some.injEq, Prod.mk.injEq] at h
    simp only [← h.2, List.length_cons]; omega
  · simp only [Option.some.injEq, Prod.mk.injEq] at h
    simp only [← h.2, List.length_cons]; omega
  · exact decimal?_length h

theorem number?_length {cs rest : List Char} {j : Json}
    (h : number? cs = some (j, rest)) : rest.length < cs.length := by
  unfold number? at h
  split at h
  · have := signed?_length h; simp only [List.length_cons]; omega
  · have := signed?_length h; simp only [List.length_cons]; omega
  · have := hexadecimal?_length h; simp only [List.length_cons]; omega
  · have := hexadecimal?_length h; simp only [List.length_cons]; omega
  · exact decimal?_length h

theorem piece?_length {cs rest : List Char} {t : Option Token}
    (h : piece? cs = some (t, rest)) : rest.length < cs.length := by
  unfold piece? at h
  split at h
  · simp at h
  all_goals try
    simp only [Option.some.injEq, Prod.mk.injEq] at h
    simp only [List.length_cons, ← h.2]
    omega
  · obtain ⟨r, hr, he⟩ := Option.map_eq_some_iff.1 h
    simp only [Prod.mk.injEq] at he
    have := afterComment_length hr
    rw [← he.2]; simp only [List.length_cons]; omega
  · rename_i cs
    have := (List.dropWhile_suffix (fun c => !isTerminator c) (l := cs)).length_le
    simp only [Option.some.injEq, Prod.mk.injEq] at h
    rw [← h.2]; simp only [List.length_cons]; omega
  · obtain ⟨⟨ps, r⟩, hr, he⟩ := Option.map_eq_some_iff.1 h
    simp only [Prod.mk.injEq] at he
    have := string?_length hr
    rw [← he.2]; simp only [List.length_cons]; omega
  · obtain ⟨⟨ps, r⟩, hr, he⟩ := Option.map_eq_some_iff.1 h
    simp only [Prod.mk.injEq] at he
    have := string?_length hr
    rw [← he.2]; simp only [List.length_cons]; omega
  · split at h
    · simp only [Option.some.injEq, Prod.mk.injEq] at h
      simp [h.2]
    · split at h
      · rename_i hw
        simp only [Option.some.injEq, Prod.mk.injEq] at h
        have := word?_length hw
        rw [← h.2]; exact this
      · obtain ⟨⟨j, r⟩, hr, he⟩ := Option.map_eq_some_iff.1 h
        simp only [Prod.mk.injEq] at he
        have := number?_length hr
        rw [← he.2]; exact this

def lex (cs : List Char) : List Token :=
  if cs = [] then []
  else
    match _h : piece? cs with
    | none => [.stray]
    | some (none, rest) => lex rest
    | some (some t, rest) => t :: lex rest
termination_by cs.length
decreasing_by all_goals exact piece?_length _h

def value? (cs : List Char) : Option Json :=
  match assemble? true (lex cs) with
  | some (j, []) => some j
  | _ => none

end FlowCanvas.Json.Relaxed
