import Mathlib.Data.List.DropRight
import FlowCanvas.Proofs.Json.Numeral

/-! Written floats are numerals. The shortest digits of a float start with one that is not zero,
since no interval around a positive value reaches down to zero. In either form they are then digits
without a needless leading zero, some places and an exponent, which is what a reader takes. -/

namespace FlowCanvas

open Json.Strict (whole? places? exponent? numeral? minus)

theorem digitRun_append_of_head? {ds rest : List Char} (hds : ∀ c ∈ ds, c.isDigit = true)
    (hrest : ∀ c, rest.head? = some c → c.isDigit = false) :
    Literal.digitRun (ds ++ rest) = (ds, rest) := by
  rw [Literal.digitRun, takeWhile_append_of_head? ds hrest, dropWhile_append_of_head? ds hrest,
    List.takeWhile_eq_self_iff.mpr hds, List.dropWhile_eq_nil_iff.mpr hds, List.nil_append]

namespace Shortest

structure Digits.Proper (d : Digits) : Prop where
  digits : ∀ c ∈ d.digits, c.isDigit = true
  nonempty : d.digits ≠ []
  lead : d.digits.head? ≠ some '0' ∨ d = zero

theorem Digits.zero_proper : Digits.zero.Proper where
  digits := fun _ hc => List.mem_singleton.mp hc ▸ rfl
  nonempty := by decide
  lead := .inr rfl

theorem Digits.ofNat_proper {n : Nat} (h : 0 < n) (k : Int) : (Digits.ofNat n k).Proper := by
  have hhead := toDigits_head? n h
  have hdigits : (ofNat n k).digits = (Nat.toDigits 10 n).rdropWhile (· == '0') := rfl
  have hpart : (ofNat n k).digits <+: Nat.toDigits 10 n := by
    rw [hdigits]
    exact List.rdropWhile_prefix _ _
  have hnonempty : (ofNat n k).digits ≠ [] := by
    intro hnil
    rw [hdigits, List.rdropWhile_eq_nil_iff] at hnil
    obtain ⟨c, cs, hcs⟩ := List.exists_cons_of_ne_nil (Nat.toDigits_ne_nil (n := n) (b := 10))
    have hzero : c = '0' := by simpa using hnil c (hcs ▸ List.mem_cons_self)
    rw [hcs, hzero] at hhead
    exact hhead rfl
  refine ⟨fun c hc => toDigits_isDigit n c (hpart.subset hc), hnonempty, .inl ?_⟩
  obtain ⟨zeros, hzeros⟩ := hpart
  rwa [← hzeros, List.head?_append_of_ne_nil _ hnonempty] at hhead

theorem Interval.pos_of_contains {i : Interval} (h : 0 < i.lower) {x : Nat}
    (hx : i.contains x = true) : 0 < x := by
  rw [contains] at hx
  split at hx
  · have hbounds : i.lower ≤ x ∧ x ≤ i.upper := by simpa using hx
    omega
  · have hbounds : i.lower < x ∧ x < i.upper := by simpa using hx
    omega

theorem interval_lower_pos (f : Float.Model.Format) {m : Nat} (hm : 0 < m) (e : Int) :
    0 < (interval f m e).lower := by
  have hscale : 0 < Nat.pow 2 (e - 2).toNat := Nat.pow_pos (by decide)
  refine Nat.mul_pos ?_ hscale
  split <;> omega

theorem Interval.inUnits_lower_pos {i : Interval} (h : 0 < i.lower) (k : Int) :
    0 < (i.inUnits k).lower :=
  Nat.mul_pos h (Nat.pow_pos (by decide))

theorem Interval.contains_of_nearest? {i : Interval} {tie : Tie} {x : Nat}
    (hx : i.nearest? tie = some x) : i.contains (x * i.denominator) = true := by
  unfold nearest? at hx
  cases hlow : i.contains (i.value / i.denominator * i.denominator) with
  | true =>
    cases hhigh : i.contains ((i.value / i.denominator + 1) * i.denominator) with
    | true =>
      simp only [hlow, hhigh] at hx
      split at hx
      · cases hx; exact hlow
      · cases hx; exact hhigh
      · cases hx; exact hhigh
      · cases hx
        split
        · exact hlow
        · exact hhigh
    | false =>
      simp only [hlow, hhigh] at hx
      cases hx
      exact hlow
  | false =>
    cases hhigh : i.contains ((i.value / i.denominator + 1) * i.denominator) with
    | true =>
      simp only [hlow, hhigh] at hx
      cases hx
      exact hhigh
    | false =>
      simp only [hlow, hhigh] at hx
      cases hx

theorem ofFinite_proper (f : Float.Model.Format) (tie : Tie) {m : Nat} (hm : 0 < m) (e : Int) :
    (ofFinite f tie m e).Proper := by
  -- The scan tries ever smaller units. Without a hit the digits would be a single zero.
  rw [ofFinite]
  dsimp only
  cases hfind : (List.range 18).findSome? _ with
  | none => exact Digits.zero_proper
  | some d =>
    obtain ⟨n, -, hn⟩ := List.exists_of_findSome?_eq_some hfind
    obtain ⟨x, hx, rfl⟩ := Option.map_eq_some_iff.mp hn
    have hinside := Interval.contains_of_nearest? hx
    have hpos := Interval.pos_of_contains
      (Interval.inUnits_lower_pos (interval_lower_pos f hm e) _) hinside
    exact Digits.ofNat_proper (Nat.pos_of_mul_pos_right hpos) _

end Shortest

namespace NumberStyle

open Shortest (Digits)

def Unsigned (cs : List Char) : Prop :=
  ∃ whole places exponent cs₁ cs₂, whole? cs = some (whole, cs₁) ∧
    places? cs₁ = some (places, cs₂) ∧ exponent? cs₂ = some (exponent, [])

section Scan

variable {ds : List Char} (rest : List Char)

theorem whole?_append (hds : ∀ c ∈ ds, c.isDigit = true) (hne : ds ≠ [])
    (hlead : ds.head? ≠ some '0' ∨ ds = ['0'])
    (hrest : ∀ c, rest.head? = some c → c.isDigit = false) :
    whole? (ds ++ rest) = some (ds, rest) := by
  rw [whole?, digitRun_append_of_head? hds hrest]
  dsimp only
  split
  · exact absurd rfl hne
  · rfl
  · rename_i ds hzero
    rcases hlead with hhead | hlead
    · exact absurd rfl hhead
    · cases hlead
      exact absurd rfl hzero
  · rfl

theorem places?_append (hds : ∀ c ∈ ds, c.isDigit = true) (hne : ds ≠ [])
    (hrest : ∀ c, rest.head? = some c → c.isDigit = false) :
    places? ('.' :: (ds ++ rest)) = some (some ds, rest) := by
  rw [places?, digitRun_append_of_head? hds hrest]
  exact if_neg hne

end Scan

theorem exponent?_toDigits (sign : Char) (hsign : sign = '-' ∨ sign = '+') (n : Nat) :
    ∃ exponent, exponent? ('e' :: sign :: Nat.toDigits 10 n) = some (exponent, []) := by
  have hne : Nat.toDigits 10 n ≠ [] := Nat.toDigits_ne_nil
  rcases hsign with rfl | rfl
  · exact ⟨some (true, Nat.toDigits 10 n), by
      simp [exponent?, Literal.sign, digitRun_toDigits, hne]⟩
  · exact ⟨some (false, Nat.toDigits 10 n), by
      simp [exponent?, Literal.sign, digitRun_toDigits, hne]⟩

theorem unsigned_scientific {d : Digits} (h : d.Proper) : Unsigned (scientific d) := by
  obtain ⟨c, cs, hcs⟩ := List.exists_cons_of_ne_nil h.nonempty
  have hlead : [c].head? ≠ some '0' ∨ [c] = ['0'] := by
    by_cases hc : c = '0'
    · exact .inr (by rw [hc])
    · exact .inl fun he => hc (Option.some.inj he)
  have hdigits : ∀ x ∈ c :: cs, x.isDigit = true := hcs ▸ h.digits
  have hc : ∀ x ∈ [c], x.isDigit = true := fun x hx =>
    hdigits x (List.mem_singleton.mp hx ▸ List.mem_cons_self)
  obtain ⟨exponent, hexponent⟩ := exponent?_toDigits (if d.exponent < 0 then '-' else '+')
    (by split <;> simp) d.exponent.natAbs
  rw [scientific, hcs]
  cases cs with
  | nil =>
    exact ⟨[c], none, exponent, _, _, whole?_append _ hc nofun hlead (by simp), rfl, hexponent⟩
  | cons c' cs =>
    have hplaces : ∀ x ∈ c' :: cs, x.isDigit = true := fun x hx =>
      hdigits x (List.mem_cons_of_mem c hx)
    have hread := places?_append ('e' :: (if d.exponent < 0 then '-' else '+') ::
      Nat.toDigits 10 d.exponent.natAbs) hplaces nofun (by simp)
    exact ⟨[c], some (c' :: cs), exponent, _, _, whole?_append _ hc nofun hlead (by simp), hread,
      hexponent⟩

theorem replicate_isDigit (n : Nat) : ∀ c ∈ List.replicate n '0', c.isDigit = true :=
  fun _ hc => List.eq_of_mem_replicate hc ▸ rfl

def beforePoint (d : Digits) (k : Nat) : List Char :=
  d.digits.take (k + 1) ++ List.replicate (k + 1 - d.digits.length) '0'

theorem whole?_beforePoint {d : Digits} (h : d.Proper) {k : Nat} (hk : d.exponent = .ofNat k)
    (rest : List Char) (hrest : ∀ c, rest.head? = some c → c.isDigit = false) :
    whole? (beforePoint d k ++ rest) = some (beforePoint d k, rest) := by
  have hdigits : ∀ c ∈ beforePoint d k, c.isDigit = true := List.forall_mem_append.mpr
    ⟨fun c hc => h.digits c (List.mem_of_mem_take hc), replicate_isDigit _⟩
  have hne : beforePoint d k ≠ [] := by simp [beforePoint, h.nonempty]
  refine whole?_append rest hdigits hne ?_ hrest
  rcases h.lead with hhead | rfl
  · refine .inl ?_
    obtain ⟨c, cs, hcs⟩ := List.exists_cons_of_ne_nil h.nonempty
    rw [beforePoint, hcs]
    rwa [hcs] at hhead
  · cases hk
    exact .inr rfl

theorem unsigned_positional (s : NumberStyle) {d : Digits} (h : d.Proper) :
    Unsigned (s.positional d) := by
  unfold positional
  split
  -- All digits stand behind the point, with zeros in front of them.
  · rename_i k _
    have hplaces : ∀ c ∈ List.replicate k '0' ++ d.digits, c.isDigit = true :=
      List.forall_mem_append.mpr ⟨replicate_isDigit k, h.digits⟩
    have hne : List.replicate k '0' ++ d.digits ≠ [] :=
      fun hnil => h.nonempty (List.append_eq_nil_iff.mp hnil).2
    have hread := places?_append [] hplaces hne nofun
    rw [List.append_nil] at hread
    exact ⟨['0'], _, none, _, [], rfl, hread, rfl⟩
  · rename_i k hk
    split
    · split
      · exact ⟨_, some ['0'], none, _, [], whole?_beforePoint h hk _ (by simp), rfl, rfl⟩
      · have hread := whole?_beforePoint h hk [] nofun
        rw [List.append_nil] at hread
        exact ⟨_, none, none, _, [], hread, rfl, rfl⟩
    · rename_i places hdrop
      have hplaces : ∀ c ∈ d.digits.drop (k + 1), c.isDigit = true := fun c hc =>
        h.digits c (List.mem_of_mem_drop hc)
      have hread := places?_append [] hplaces hdrop nofun
      rw [List.append_nil] at hread
      exact ⟨_, _, none, _, [], whole?_beforePoint h hk _ (by simp), hread, rfl⟩

theorem unsigned_digits (s : NumberStyle) {d : Digits} (h : d.Proper) : Unsigned (s.digits d) := by
  unfold digits
  split
  · exact unsigned_positional s h
  · split
    · exact unsigned_positional s h
    · exact unsigned_scientific h

theorem Unsigned.numeral?_signed {cs : List Char} (h : Unsigned cs)
    (sign : Float.Model.UnpackedFloat.Sign) : ∃ n, numeral? (signed sign cs) = some (n, []) := by
  obtain ⟨whole, places, exponent, cs₁, cs₂, hwhole, hplaces, hexponent⟩ := h
  have hread (negative : Bool) (hminus : minus (signed sign cs) = (negative, cs)) :
      numeral? (signed sign cs) = some (⟨negative, whole, places, exponent⟩, []) := by
    simp only [numeral?, hminus, hwhole, hplaces, hexponent, Option.bind_some, Option.map_some]
  cases sign with
  | negative => exact ⟨_, hread true rfl⟩
  | positive =>
    refine ⟨_, hread false ?_⟩
    rw [signed, minus]
    rintro tail rfl
    cases hwhole

theorem numeral?_write (s : NumberStyle) (hinfinite : ∀ sign, s.infinite sign = "null")
    (hundefined : s.undefined = "null") (u : Float.Model.UnpackedFloat) :
    (∃ n, numeral? (s.write u) = some (n, [])) ∨ s.write u = "null".toList := by
  cases u with
  | notANumber => exact .inr (congrArg String.toList hundefined)
  | infinity sign => exact .inr (congrArg String.toList (hinfinite sign))
  | zero sign => exact .inl ((unsigned_digits s Digits.zero_proper).numeral?_signed sign)
  | finite sign m e hm =>
    have hproper := Shortest.ofFinite_proper s.format s.tie hm e
    exact .inl ((unsigned_digits s hproper).numeral?_signed sign)

end NumberStyle

namespace Number

theorem numeral?_writeNumber (n : Number) :
    (∃ k, numeral? (Json.writeNumber n) = some (k, [])) ∨ Json.writeNumber n = "null".toList := by
  cases n with
  | integer i => exact .inl ⟨_, Json.Strict.numeral?_writeInt i⟩
  | single x => exact NumberStyle.single.numeral?_write (fun _ => rfl) rfl _
  | double x => exact NumberStyle.double.numeral?_write (fun _ => rfl) rfl _

/-- What is read where a number was written: what its numeral stands for, or null without one. -/
def echo (n : Number) : Json :=
  match numeral? (Json.writeNumber n) with
  | some (k, _) => Json.ofNumber k.strict?
  | none => .null

theorem token?_writeNumber (n : Number) {rest : List Char} (hr : Json.Strict.Ends rest) :
    Json.Strict.token? (Json.writeNumber n ++ rest) = some (.scalar n.echo, rest) := by
  rcases n.numeral?_writeNumber with hnumeral | hnull
  · obtain ⟨k, hk⟩ := hnumeral
    rw [echo, hk]
    exact Json.Strict.token?_numeral hr hk
  · rw [echo, hnull]
    rfl

theorem tokens_echo (n : Number) : n.echo.tokens = [.scalar n.echo] := by
  unfold echo
  split
  · rename_i k _ _
    cases k.strict? <;> rfl
  · rfl

theorem echo_of_reread? {n k : Number} (h : n.reread? = some k) : n.echo = .number k := by
  obtain ⟨numeral, hnumeral, hk⟩ := exists_of_reread? h
  rw [echo, hnumeral]
  exact congrArg Json.ofNumber hk

end Number

end FlowCanvas
