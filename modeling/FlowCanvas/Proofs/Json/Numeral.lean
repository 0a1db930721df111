import Mathlib.Data.List.TakeWhile
import FlowCanvas.Json.Printer
import FlowCanvas.Json.Strict

/-! Written numbers. A numeral goes as far as it can, so it is read in full where white space
follows it or a container goes on or ends. Whole numbers that fit sixty-four bits come back as they
were written. What a float comes back as is left to `Number.reread?`. -/

namespace FlowCanvas

theorem takeWhile_append_of_head? {α : Type} {p : α → Bool} (xs : List α) {ys : List α}
    (h : ∀ y, ys.head? = some y → p y = false) : (xs ++ ys).takeWhile p = xs.takeWhile p := by
  induction xs with
  | nil =>
    cases ys with
    | nil => rfl
    | cons y ys => simp [h y rfl]
  | cons x xs ih =>
    rw [List.cons_append, List.takeWhile_cons, List.takeWhile_cons, ih]

theorem dropWhile_append_of_head? {α : Type} {p : α → Bool} (xs : List α) {ys : List α}
    (h : ∀ y, ys.head? = some y → p y = false) : (xs ++ ys).dropWhile p = xs.dropWhile p ++ ys := by
  induction xs with
  | nil =>
    cases ys with
    | nil => rfl
    | cons y ys => simp [h y rfl]
  | cons x xs ih =>
    rw [List.cons_append, List.dropWhile_cons, List.dropWhile_cons, ih]
    cases p x <;> rfl

theorem toDigits_isDigit (n : Nat) : ∀ c ∈ Nat.toDigits 10 n, c.isDigit = true :=
  fun _ => Nat.isDigit_of_mem_toDigits (by decide) (by decide)

theorem digitRun_toDigits (n : Nat) :
    Literal.digitRun (Nat.toDigits 10 n) = (Nat.toDigits 10 n, []) := by
  have hdigits := toDigits_isDigit n
  rw [Literal.digitRun, List.takeWhile_eq_self_iff.mpr hdigits,
    List.dropWhile_eq_nil_iff.mpr hdigits]

theorem toDigits_head? (n : Nat) (h : 0 < n) : (Nat.toDigits 10 n).head? ≠ some '0' := by
  induction n using Nat.strongRecOn with
  | _ n ih =>
    rcases Nat.lt_or_ge n 10 with hlt | hge
    · have hdigit : ∀ m < 10, 0 < m → m.digitChar ≠ '0' := by decide
      rw [Nat.toDigits_of_lt_base hlt]
      exact fun he => hdigit n hlt h (Option.some.inj he)
    · have hlead := ih (n / 10) (by omega) (by omega)
      obtain ⟨c, cs, hcs⟩ := List.exists_cons_of_ne_nil (Nat.toDigits_ne_nil (n := n / 10) (b := 10))
      rw [Nat.toDigits_of_base_le (by decide) hge, hcs]
      rwa [hcs] at hlead

theorem continueDigits_toDigits (n : Nat) : Literal.continueDigits 0 (Nat.toDigits 10 n) = n :=
  Nat.ofDigitChars_ten_toDigits

theorem le_continueDigits (n : Nat) (cs : List Char) : n ≤ Literal.continueDigits n cs := by
  induction cs generalizing n with
  | nil => exact Nat.le_refl n
  | cons c cs ih =>
    have hnext := ih (10 * n + Literal.digitValue c)
    rw [Literal.continueDigits, List.foldl_cons]
    exact Nat.le_trans (by omega) hnext

theorem Json.Numeral.absorb_eq {n : Nat} {cs : List Char}
    (h : Literal.continueDigits n cs < 0x10000000000000000) :
    absorb n cs = (Literal.continueDigits n cs, 0) := by
  induction cs generalizing n with
  | nil => rfl
  | cons c cs ih =>
    have hnext : Literal.continueDigits (10 * n + Literal.digitValue c) cs <
        0x10000000000000000 := h
    rw [absorb, if_pos (Nat.lt_of_le_of_lt (le_continueDigits _ cs) hnext), ih hnext]
    rfl

theorem Json.Numeral.strict?_whole {negative : Bool} {ds : List Char}
    (h : Literal.continueDigits 0 ds < 0x10000000000000000)
    (hsign : (!negative) = true ∨
      0 < Literal.continueDigits 0 ds ∧ Literal.continueDigits 0 ds ≤ 0x8000000000000000) :
    Json.Numeral.strict? ⟨negative, ds, none, none⟩ = some (.integer
      (if negative then -(Literal.continueDigits 0 ds : Int) else Literal.continueDigits 0 ds)) := by
  rw [strict?, absorb_eq h]
  dsimp only
  rw [if_pos ⟨rfl, rfl, hsign⟩]

namespace Json.Numeral

theorem absorb_lt {n : Nat} (h : n < 0x10000000000000000) (cs : List Char) :
    (absorb n cs).1 < 0x10000000000000000 := by
  induction cs generalizing n with
  | nil => exact h
  | cons c cs ih =>
    rw [absorb]
    split
    · exact ih ‹_›
    · exact h

theorem strict?_cases {n : Numeral} {m : Number} (h : n.strict? = some m) :
    (∃ i, m = .integer i ∧ m.isPortable = true) ∨ ∃ x, m = .double x := by
  have hbound := absorb_lt (n := 0) (by decide) n.whole
  unfold strict? at h
  dsimp only at h
  split at h
  · rename_i hwhole
    cases h
    refine .inl ⟨_, rfl, ?_⟩
    rw [Number.isPortable, decide_eq_true_eq]
    obtain ⟨-, -, hsign⟩ := hwhole
    cases hnegative : n.negative with
    | true =>
      have hpos : 0 < (absorb 0 n.whole).1 ∧ (absorb 0 n.whole).1 ≤ 0x8000000000000000 :=
        hsign.resolve_left (by rw [hnegative]; decide)
      rw [if_pos rfl]
      omega
    | false =>
      rw [if_neg Bool.false_ne_true]
      omega
  · split at h
    · cases h
      exact .inr ⟨_, rfl⟩
    · obtain ⟨x, -, rfl⟩ := Option.map_eq_some_iff.mp h
      exact .inr ⟨_, rfl⟩

end Json.Numeral

namespace Json

namespace Strict

/-- The end of a text, or what may follow a value: the punctuation of a container, or white space. -/
inductive Ends : List Char → Prop
  | nil : Ends []
  | cons {c : Char} (h : c ∈ [',', ']', '\x7d', ' ', '\n', '\t', '\r']) (cs : List Char) :
    Ends (c :: cs)

variable {cs ds rest tail : List Char} {n : Numeral}

theorem Ends.head? (h : Ends rest) {c : Char} (hc : rest.head? = some c) :
    c.isDigit = false ∧ c ≠ '.' ∧ ¬ (c = 'e' ∨ c = 'E') ∧ c ≠ '-' ∧ c ≠ '+' := by
  cases h with
  | nil => cases hc
  | cons h cs =>
    cases hc
    simp only [List.mem_cons, List.not_mem_nil, or_false] at h
    rcases h with rfl | rfl | rfl | rfl | rfl | rfl | rfl <;> decide

theorem digitRun_ends (hr : Ends rest) (cs : List Char) : Literal.digitRun (cs ++ rest) =
    ((Literal.digitRun cs).1, (Literal.digitRun cs).2 ++ rest) := by
  have hstop : ∀ c, rest.head? = some c → c.isDigit = false := fun c hc => (hr.head? hc).1
  rw [Literal.digitRun, takeWhile_append_of_head? cs hstop, dropWhile_append_of_head? cs hstop,
    Literal.digitRun]

theorem sign_ends (hr : Ends rest) (cs : List Char) :
    Literal.sign (cs ++ rest) = ((Literal.sign cs).1, (Literal.sign cs).2 ++ rest) := by
  cases cs with
  | nil =>
    cases hr with
    | nil => rfl
    | cons h tail =>
      obtain ⟨-, -, -, hminus, hplus⟩ := (Ends.cons h tail).head? rfl
      simp only [List.nil_append, Literal.sign]
      split <;> simp_all
  | cons c cs =>
    simp only [List.cons_append, Literal.sign]
    split <;> simp_all

theorem minus_ends (hr : Ends rest) (cs : List Char) :
    minus (cs ++ rest) = ((minus cs).1, (minus cs).2 ++ rest) := by
  cases cs with
  | nil =>
    cases hr with
    | nil => rfl
    | cons h tail =>
      obtain ⟨-, -, -, hminus, -⟩ := (Ends.cons h tail).head? rfl
      simp only [List.nil_append, minus]
      split <;> simp_all
  | cons c cs =>
    simp only [List.cons_append, minus]
    split <;> simp_all

theorem whole?_ends (hr : Ends rest) (h : whole? cs = some (ds, tail)) :
    whole? (cs ++ rest) = some (ds, tail ++ rest) := by
  rw [whole?] at h
  rw [whole?, digitRun_ends hr]
  dsimp only at h ⊢
  split at h
  · cases h
  · rename_i hd
    cases h
    simp only [hd]
  · cases h
  · cases h
    rfl

theorem places?_ends (hr : Ends rest) {places : Option (List Char)}
    (h : places? cs = some (places, tail)) : places? (cs ++ rest) = some (places, tail ++ rest) := by
  have hother : ∀ {cs : List Char}, (∀ tl, cs ≠ '.' :: tl) → places? cs = some (none, cs) := by
    intro cs hcs
    rw [places?]
    exact hcs
  cases cs with
  | nil =>
    cases h
    refine hother fun tl htl => ?_
    have hhead : rest.head? = some '.' := by rw [← List.nil_append rest, htl]; rfl
    exact (hr.head? hhead).2.1 rfl
  | cons c cs =>
    by_cases hc : c = '.'
    · subst hc
      simp only [List.cons_append, places?, digitRun_ends hr] at h ⊢
      split at h
      · cases h
      · rename_i hd
        cases h
        rw [if_neg hd]
    · have hne : ∀ ds tl, c :: ds ≠ '.' :: tl := fun _ _ he => hc (List.cons.inj he).1
      rw [hother (hne cs)] at h
      cases h
      rw [List.cons_append, hother (hne _)]

theorem exponent?_ends (hr : Ends rest) {exponent : Option (Bool × List Char)}
    (h : exponent? cs = some (exponent, tail)) :
    exponent? (cs ++ rest) = some (exponent, tail ++ rest) := by
  cases cs with
  | nil =>
    cases h
    cases hr with
    | nil => rfl
    | cons hc tl =>
      have hmark := ((Ends.cons hc tl).head? rfl).2.2.1
      rw [List.nil_append, exponent?, if_neg hmark]
  | cons c cs =>
    simp only [List.cons_append, exponent?, sign_ends hr, digitRun_ends hr] at h ⊢
    split at h
    · rename_i hmark
      rw [if_pos hmark]
      split at h
      · cases h
      · rename_i hd
        cases h
        rw [if_neg hd]
    · rename_i hmark
      cases h
      rw [if_neg hmark]
      rfl

theorem numeral?_ends (hr : Ends rest) (h : numeral? cs = some (n, tail)) :
    numeral? (cs ++ rest) = some (n, tail ++ rest) := by
  simp only [numeral?, Option.bind_eq_some_iff, Option.map_eq_some_iff, Prod.exists,
    Prod.mk.injEq] at h
  obtain ⟨whole, cs₁, hwhole, places, cs₂, hplaces, exponent, cs₃, hexponent, rfl, rfl⟩ := h
  simp only [numeral?, minus_ends hr, whole?_ends hr hwhole, places?_ends hr hplaces,
    exponent?_ends hr hexponent, Option.bind_some, Option.map_some]

theorem numeral?_head {c : Char} {r : Numeral × List Char} (h : numeral? (c :: cs) = some r) :
    c = '-' ∨ c.isDigit = true := by
  refine Classical.or_iff_not_imp_left.mpr fun hminus => ?_
  simp only [numeral?, Option.bind_eq_some_iff, Prod.exists] at h
  obtain ⟨whole, tail, hwhole, -⟩ := h
  have hcs : (minus (c :: cs)).2 = c :: cs := by
    rw [minus]
    exact fun _ he => hminus (List.cons.inj he).1
  rw [hcs, whole?, Literal.digitRun, List.takeWhile_cons] at hwhole
  cases hc : c.isDigit with
  | true => rfl
  | false =>
    rw [hc] at hwhole
    cases hwhole

theorem token?_numeral (hr : Ends rest) (h : numeral? cs = some (n, tail)) :
    token? (cs ++ rest) = some (.scalar (ofNumber n.strict?), tail ++ rest) := by
  have hnumeral : numeral? (cs ++ rest) = some (n, tail ++ rest) := numeral?_ends hr h
  cases cs with
  | nil => cases h
  | cons c cs =>
    have hhead := numeral?_head h
    rw [List.cons_append] at hnumeral ⊢
    unfold token?
    split
    case h_11 => rw [hnumeral, Option.map_some]
    all_goals
      rename_i heq
      obtain ⟨rfl, -⟩ := List.cons.inj heq
      exact absurd hhead (by decide)

theorem whole?_toDigits (m : Nat) :
    whole? (Nat.toDigits 10 m) = some (Nat.toDigits 10 m, []) := by
  rw [whole?, digitRun_toDigits]
  rcases Nat.eq_zero_or_pos m with rfl | hpos
  · rfl
  · have hne : Nat.toDigits 10 m ≠ [] := Nat.toDigits_ne_nil
    have hhead := toDigits_head? m hpos
    dsimp only
    split
    · exact absurd ‹_› hne
    · rename_i hd
      exact absurd (by rw [hd]; rfl) hhead
    · rename_i hd
      exact absurd (by rw [hd]; rfl) hhead
    · rfl

theorem numeral?_writeInt (i : Int) : numeral? (writeInt i) =
    some (⟨decide (i < 0), Nat.toDigits 10 i.natAbs, none, none⟩, []) := by
  have hwhole := whole?_toDigits i.natAbs
  rw [writeInt]
  by_cases hi : i < 0
  · simp only [if_pos hi, numeral?, minus, hwhole, decide_eq_true hi]
    rfl
  · have hminus : minus (Nat.toDigits 10 i.natAbs) = (false, Nat.toDigits 10 i.natAbs) := by
      rw [minus]
      intro tl htl
      have hdigit := toDigits_isDigit i.natAbs '-' (by rw [htl]; exact List.mem_cons_self)
      exact absurd hdigit (by decide)
    simp only [if_neg hi, numeral?, hminus, hwhole, decide_eq_false hi]
    rfl

end Strict

end Json

namespace Number

open Json

/-- What is read where a number was written, if a numeral was. -/
def reread? (n : Number) : Option Number :=
  match Strict.numeral? (writeNumber n) with
  | some (k, []) => k.strict?
  | _ => none

theorem exists_of_reread? {n k : Number} (h : n.reread? = some k) :
    ∃ numeral, Strict.numeral? (writeNumber n) = some (numeral, []) ∧ numeral.strict? = some k := by
  rw [reread?] at h
  split at h
  · exact ⟨_, ‹_›, h⟩
  · cases h

theorem reread?_integer {i : Int} (h : (Number.integer i).isPortable = true) :
    (Number.integer i).reread? = some (.integer i) := by
  have hrange : -0x8000000000000000 ≤ i ∧ i < 0x10000000000000000 := by simpa [isPortable] using h
  have hfits : Literal.continueDigits 0 (Nat.toDigits 10 i.natAbs) < 0x10000000000000000 := by
    rw [continueDigits_toDigits]
    omega
  have hsign : (!decide (i < 0)) = true ∨ 0 < i.natAbs ∧ i.natAbs ≤ 0x8000000000000000 := by
    by_cases hi : i < 0
    · exact .inr (by omega)
    · exact .inl (by simpa using hi)
  have hvalue : (if decide (i < 0) = true then -(i.natAbs : Int) else i.natAbs) = i := by
    by_cases hi : i < 0
    · rw [decide_eq_true hi, if_pos rfl]
      omega
    · rw [decide_eq_false hi, if_neg Bool.false_ne_true]
      omega
  have hwrite : writeNumber (.integer i) = writeInt i := rfl
  rw [reread?, hwrite, Strict.numeral?_writeInt]
  dsimp only
  rw [Numeral.strict?_whole hfits (by rwa [continueDigits_toDigits]), continueDigits_toDigits,
    hvalue]

end Number

end FlowCanvas
