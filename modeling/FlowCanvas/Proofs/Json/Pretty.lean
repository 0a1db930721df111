import FlowCanvas.Proofs.Json.Embed

/-! The pretty form. It has the tokens of the compact form, with white space between some of them
that a reader skips, so both are texts of one value. -/

namespace FlowCanvas.Json

namespace Strict

theorem dropWhile_lineBreak (level : Nat) (cs : List Char) :
    (lineBreak level ++ cs).dropWhile isSpace = cs.dropWhile isSpace := by
  have hspace : ∀ c ∈ List.replicate (2 * level) ' ', isSpace c = true := fun c hc =>
    List.eq_of_mem_replicate hc ▸ rfl
  exact List.dropWhile_append_of_pos (List.forall_mem_cons.mpr ⟨rfl, hspace⟩)

theorem lex_lineBreak (level : Nat) (cs : List Char) : lex (lineBreak level ++ cs) = lex cs :=
  lex_congr (dropWhile_lineBreak level cs)

theorem ends_lineBreak (level : Nat) (cs : List Char) : Ends (lineBreak level ++ cs) :=
  .cons (by decide) _

theorem lex_spacedKey (k : String) (cs : List Char) :
    lex (quote k ++ ':' :: ' ' :: cs) = .text (some k) :: .colon :: lex cs := by
  have hspace : lex (' ' :: cs) = lex cs := lex_congr rfl
  rw [lex_key, hspace]

mutual

theorem lex_prettyAt (level : Nat) (j : Json) (rest : List Char) (hr : Ends rest) :
    lex (prettyAt level j ++ rest) = j.echo.tokens ++ lex rest := by
  match j with
  | .null => exact lex_of_token? rfl
  | .bool true => exact lex_of_token? rfl
  | .bool false => exact lex_of_token? rfl
  | .unreadable => exact lex_of_token? rfl
  | .number n =>
    rw [echo, n.tokens_echo]
    exact lex_of_token? (n.token?_writeNumber hr)
  | .text s => exact lex_of_token? (token?_quote s rest)
  | .array [] =>
    exact (lex_openArray _).trans (congrArg _ (lex_closeArray rest))
  -- The line break before the closing bracket belongs to the items, as what follows the last one.
  | .array (j :: js) =>
    have hitems := lex_prettyItems (level + 1) level (j :: js) nofun rest
    rw [prettyAt, List.cons_append, List.cons_append, List.cons_append, lex_openArray,
      List.append_assoc, List.append_assoc]
    · exact congrArg _ hitems
    · nofun
  | .object [] =>
    exact (lex_openObject _).trans (congrArg _ (lex_closeObject rest))
  | .object (f :: fs) =>
    have hfields := lex_prettyFields (level + 1) level (f :: fs) nofun rest
    rw [prettyAt, List.cons_append, List.cons_append, List.cons_append, lex_openObject,
      List.append_assoc, List.append_assoc]
    · exact congrArg _ hfields
    · nofun

theorem lex_prettyItems (level outer : Nat) (js : List Json) (hjs : js ≠ []) (rest : List Char) :
    lex (prettyItems level js ++ (lineBreak outer ++ ([']'] ++ rest))) =
      itemTokens (echoItems js) ++ lex rest := by
  match js with
  | [j] =>
    rw [prettyItems, List.append_assoc, lex_lineBreak,
      lex_prettyAt level j _ (ends_lineBreak outer _), lex_lineBreak, List.singleton_append,
      lex_closeArray, echoItems, echoItems, itemTokens, List.append_assoc]
    rfl
  | j :: j' :: js =>
    have hrest := lex_prettyItems level outer (j' :: js) nofun rest
    have hecho : itemTokens (echoItems (j :: j' :: js)) =
        j.echo.tokens ++ .comma :: itemTokens (echoItems (j' :: js)) := by
      rw [echoItems, echoItems, itemTokens]
      nofun
    rw [prettyItems, List.append_assoc, List.append_assoc, lex_lineBreak,
      List.cons_append, lex_prettyAt level j _ (.cons (by decide) _), lex_comma, hrest, hecho,
      List.append_assoc, List.cons_append]
    nofun

theorem lex_prettyFields (level outer : Nat) (fs : List (String × Json)) (hfs : fs ≠ [])
    (rest : List Char) :
    lex (prettyFields level fs ++ (lineBreak outer ++ (['\x7d'] ++ rest))) =
      fieldTokens (echoFields fs) ++ lex rest := by
  match fs with
  | [(k, j)] =>
    have hvalue := lex_prettyAt level j _ (ends_lineBreak outer (['\x7d'] ++ rest))
    have hecho : fieldTokens (echoFields [(k, j)]) =
        .text (some k) :: .colon :: (j.echo.tokens ++ [.closeObject]) := rfl
    rw [lex_lineBreak, List.singleton_append, lex_closeObject] at hvalue
    rw [prettyFields, List.append_assoc, List.append_assoc, lex_lineBreak, List.cons_append,
      List.cons_append, lex_spacedKey, List.singleton_append, hvalue, hecho, List.cons_append,
      List.cons_append, List.append_assoc]
    rfl
  | (k, j) :: f :: fs =>
    have hrest := lex_prettyFields level outer (f :: fs) nofun rest
    have hecho : fieldTokens (echoFields ((k, j) :: f :: fs)) = .text (some k) :: .colon ::
        (j.echo.tokens ++ .comma :: fieldTokens (echoFields (f :: fs))) := rfl
    rw [prettyFields, List.append_assoc, List.append_assoc, List.append_assoc, lex_lineBreak,
      List.cons_append, List.cons_append, lex_spacedKey, List.cons_append,
      lex_prettyAt level j _ (.cons (by decide) _), lex_comma, hrest, hecho]
    · simp only [List.append_assoc, List.cons_append]
    · nofun

end

theorem lex_pretty (j : Json) (rest : List Char) (hrest : rest.dropWhile isSpace = []) :
    lex (prettyAt 0 j ++ rest) = lex j.compact := by
  have hr : Ends rest := by
    cases rest with
    | nil => exact .nil
    | cons c cs =>
      have hc : isSpace c = true := List.dropWhile_eq_nil_iff.mp hrest c List.mem_cons_self
      simp only [isSpace, decide_eq_true_eq] at hc
      rcases hc with rfl | rfl | rfl | rfl <;> exact .cons (by decide) cs
  rw [lex_prettyAt 0 j rest hr, lex_of_blank hrest, lex_compact, List.append_nil]

end Strict

theorem reads_write (j : Json) : Reads j.write j.echo := by
  rw [Reads, write, String.toList_ofList]
  exact Strict.value?_of_lex (Strict.lex_compact j)

theorem reads_pretty (j : Json) : Reads (j.pretty ++ "\n") j.echo := by
  have hchars : (j.pretty ++ "\n").toList = prettyAt 0 j ++ ['\n'] := by
    rw [String.toList_append, pretty, String.toList_ofList]
    rfl
  rw [Reads, hchars]
  exact Strict.value?_of_lex ((Strict.lex_pretty j ['\n'] rfl).trans (Strict.lex_compact j))

end FlowCanvas.Json
