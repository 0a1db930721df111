import FlowCanvas.Json.Printer
import FlowCanvas.Json.Strict

/-! Quoted strings. Each character is written as one piece of a string: itself, a letter after a
backslash, or a unit in hexadecimal. Reading takes the pieces up one by one as far as the closing
quote, and they spell the characters. -/

namespace FlowCanvas.Json

def pieceOf (c : Char) : Piece :=
  if c.toNat < 0x20 ∧ ¬ (c = '\n' ∨ c = '\t' ∨ c = '\r' ∨ c = '\x08' ∨ c = '\x0c') then
    .unit c.toNat
  else .char c

theorem hexValue?_hexDigit : ∀ n < 16, hexValue? (hexDigit n) = some n := by decide

theorem hexNumber?_control {n : Nat} (h : n < 0x20) :
    hexNumber? ['0', '0', hexDigit (n / 16), hexDigit (n % 16)] = some n := by
  have hzero : hexValue? '0' = some 0 := rfl
  have hhigh := hexValue?_hexDigit (n / 16) (by omega)
  have hlow := hexValue?_hexDigit (n % 16) (by omega)
  simp only [hexNumber?, List.foldlM_cons, List.foldlM_nil, hzero, hhigh, hlow, Option.map_some,
    Option.bind_eq_bind, Option.bind_some, Option.pure_def, Option.some.injEq]
  omega

namespace Strict

theorem string?_escape (c : Char) (rest : List Char) :
    string? (escape c ++ rest) = addPiece (pieceOf c) (string? rest) := by
  unfold escape pieceOf
  split
  · subst_vars; rfl
  split
  · subst_vars; rfl
  split
  · subst_vars; rfl
  split
  · subst_vars; rfl
  split
  · subst_vars; rfl
  split
  · subst_vars; rfl
  split
  · subst_vars; rfl
  split
  · rename_i hn ht hr hb hf hcontrol
    have hunit : c.toNat < 0x20 ∧ ¬ (c = '\n' ∨ c = '\t' ∨ c = '\r' ∨ c = '\x08' ∨ c = '\x0c') :=
      ⟨hcontrol, by simp [hn, ht, hr, hb, hf]⟩
    rw [if_pos hunit]
    simp only [List.cons_append, List.nil_append, string?, hexNumber?_control hcontrol]
  · rename_i hquote hslash _ _ _ _ _ hcontrol
    rw [if_neg fun h => hcontrol h.1, List.singleton_append, string?, if_neg hcontrol]
    · exact hquote
    · exact fun _ _ _ _ _ h _ => hslash h
    · exact fun _ _ h _ => hslash h

theorem string?_quoted (cs rest : List Char) :
    string? (cs.flatMap escape ++ '"' :: rest) = some (cs.map pieceOf, rest) := by
  induction cs with
  | nil => rfl
  | cons c cs ih => rw [List.flatMap_cons, List.append_assoc, string?_escape, ih]; rfl

end Strict

theorem spell?_pieceOf (pair : Pairing) (c : Char) (ps : List Piece) :
    spell? pair (pieceOf c :: ps) = (spell? pair ps).map (c :: ·) := by
  unfold pieceOf
  split
  · rename_i h
    have hleading : isLeading c.toNat = false := by simp [isLeading]; omega
    have htrailing : isTrailing c.toNat = false := by simp [isTrailing]; omega
    cases ps with
    | nil => simp [spell?, hleading, htrailing, Char.ofNat_toNat]
    | cons p ps =>
      cases p with
      | char d => simp [spell?, hleading, htrailing, Char.ofNat_toNat]
      | unit v => simp [spell?, hleading, htrailing, Char.ofNat_toNat]
  · rfl

theorem spelled?_pieces (pair : Pairing) (s : String) :
    spelled? pair (s.toList.map pieceOf) = some s := by
  have hspell (cs : List Char) : spell? pair (cs.map pieceOf) = some cs := by
    induction cs with
    | nil => rfl
    | cons c cs ih => rw [List.map_cons, spell?_pieceOf, ih, Option.map_some]
  rw [spelled?, hspell, Option.map_some, String.ofList_toList]

theorem Strict.token?_quote (s : String) (rest : List Char) :
    token? (quote s ++ rest) = some (.text (some s), rest) := by
  have hstring : string? ((s.toList.flatMap escape ++ ['"']) ++ rest) =
      some (s.toList.map pieceOf, rest) := by
    rw [List.append_assoc]
    exact string?_quoted s.toList rest
  rw [quote, List.cons_append, token?, hstring]
  simp only [Option.map_some, spelled?_pieces]

end FlowCanvas.Json
