import Mathlib.Algebra.Group.Nat.Defs
import FlowCanvas.Json.Spelling

/-! Ordinary doubles, which are neither infinite nor zero. Rounding leaves a mantissa with its
leading bit at the place of the format, so a number in the range of the exponents is rounded to an
ordinary double. The powers of ten that a numeral is scaled by are such numbers. -/

namespace FlowCanvas

open Float.Model (UnpackedFloat Format)
open Float.Model.UnpackedFloat (ExtendedMantissa Accuracy)

namespace Binary

def Ordinary (u : UnpackedFloat) : Prop :=
  match u with
  | .finite .. => True
  | _ => False

instance (u : UnpackedFloat) : Decidable (Ordinary u) :=
  match u with
  | .finite .. => .isTrue trivial
  | .zero _ => .isFalse id
  | .infinity _ => .isFalse id
  | .notANumber => .isFalse id

theorem ofNat_ne_full {n k : Nat} (h : k + 1 < 2 ^ n) : BitVec.ofNat n k ≠ -1#n := by
  intro he
  have hk := congrArg BitVec.toNat he
  rw [BitVec.toNat_ofNat, Nat.mod_eq_of_lt (by omega), BitVec.neg_one_eq_allOnes,
    BitVec.toNat_allOnes] at hk
  omega

theorem shiftRight_mantissa (em : ExtendedMantissa) (n : Nat) :
    (em >>> n).mantissa = em.mantissa / 2 ^ n := by
  induction n with
  | zero => exact (Nat.div_one _).symm
  | succ n ih =>
    have hstep : em >>> (n + 1) = (em >>> n).shiftRightOne := rfl
    rw [hstep, ExtendedMantissa.shiftRightOne, ih, Nat.div_div_eq_div_mul, Nat.pow_succ]

theorem roundedMantissa_bounds (em : ExtendedMantissa) :
    em.mantissa ≤ em.roundedMantissa ∧ em.roundedMantissa ≤ em.mantissa + 1 := by
  unfold ExtendedMantissa.roundedMantissa Accuracy.roundToNearestEven
  split <;> omega

theorem targetExponent_double {t : Int} (h : -1021 ≤ t) :
    Format.binary64.targetExponent t = t - 53 := by
  change max (t - 53) (-1074) = t - 53
  omega

theorem ofNat_ne_zero {n k : Nat} (hpos : 0 < k) (h : k < 2 ^ n) : BitVec.ofNat n k ≠ 0#n := by
  intro he
  have hk := congrArg BitVec.toNat he
  rw [BitVec.toNat_ofNat, Nat.mod_eq_of_lt h, BitVec.toNat_ofNat, Nat.zero_mod] at hk
  omega

theorem ordinary_unpack_pack {s : UnpackedFloat.Sign} {m : Nat} {e : Int} {hm : 0 < m}
    (hlog : m.log2 = 52) (hlow : -1074 ≤ e) (hhigh : e ≤ 971) :
    Ordinary (.unpack .binary64 (UnpackedFloat.pack .binary64 (.finite s m e hm))) := by
  obtain ⟨b, hb⟩ : ∃ b : Nat, (e + (1023 : Nat) + (52 : Nat)).toNat = b := ⟨_, rfl⟩
  have hroom : ¬ 2 ^ 11 ≤ b + 1 := by omega
  have hpack : UnpackedFloat.pack .binary64 (.finite s m e hm) =
      UnpackedFloat.packComponents .binary64 s (.ofNat 11 b) (.ofNat 52 m) := by
    change (if 2 ^ 11 ≤ (e + (1023 : Nat) + (52 : Nat)).toNat + 1 then _ else
      if m.log2 + 1 = 1 + 52 then UnpackedFloat.packComponents .binary64 s
        (.ofNat 11 (e + (1023 : Nat) + (52 : Nat)).toNat) (.ofNat 52 m) else _) = _
    rw [hb, if_neg hroom, hlog, if_pos rfl]
  have hfull : BitVec.ofNat 11 b ≠ -1#11 := ofNat_ne_full (by omega)
  have hzero : BitVec.ofNat 11 b ≠ 0#11 := ofNat_ne_zero (by omega) (by omega)
  rw [hpack]
  unfold UnpackedFloat.unpack
  rw [UnpackedFloat.unpackExponent_packComponents, if_neg hfull, if_neg hzero]
  trivial

theorem log2_div {m : Nat} (h : 52 ≤ m.log2) : (m / 2 ^ (m.log2 - 52)).log2 = 52 := by
  have hm : m ≠ 0 := by
    rintro rfl
    exact absurd h (by decide)
  have hlow := Nat.log2_self_le hm
  have hhigh := Nat.lt_log2_self (n := m)
  have hpos := Nat.two_pow_pos (m.log2 - 52)
  have hsplit : 2 ^ m.log2 = 2 ^ 52 * 2 ^ (m.log2 - 52) := by
    rw [← Nat.pow_add]
    congr 1
    omega
  have hquotient : 2 ^ 52 ≤ m / 2 ^ (m.log2 - 52) := by
    rw [Nat.le_div_iff_mul_le hpos, ← hsplit]
    exact hlow
  have hne : m / 2 ^ (m.log2 - 52) ≠ 0 := by omega
  rw [Nat.log2_eq_iff hne, Nat.div_lt_iff_lt_mul hpos]
  refine ⟨hquotient, ?_⟩
  rw [Nat.pow_succ, hsplit] at hhigh
  omega

open Float.Model.UnpackedFloat in
theorem shift_double {m : Nat} {e : Int} (acc : Accuracy) (h : -1021 ≤ m.log2 + 1 + e) :
    (shiftToTargetExponent .binary64 m e acc).1.mantissa = m / 2 ^ (m.log2 - 52) ∧
      (shiftToTargetExponent .binary64 m e acc).2 = e + (m.log2 - 52 : Nat) := by
  have htotal : Float.Model.totalExponent m e = m.log2 + 1 + e := rfl
  have hamount : (Format.binary64.targetExponent (Float.Model.totalExponent m e) - e).toNat =
      m.log2 - 52 := by
    rw [htotal, targetExponent_double h]
    omega
  have hmantissa : (ExtendedMantissa.ofMantissaAndAccuracy m acc).mantissa = m := by
    unfold ExtendedMantissa.ofMantissaAndAccuracy
    split <;> rfl
  simp only [shiftToTargetExponent, shiftToExponent, hamount, shiftRight_mantissa, hmantissa,
    and_self]

open Float.Model.UnpackedFloat in
theorem ordinary_round {s : Sign} {m : Nat} {e : Int} (hlog : 52 ≤ m.log2) (hlow : -1074 ≤ e)
    (hhigh : m.log2 + e ≤ 1022) :
    Ordinary (unpack .binary64 (pack .binary64 (roundWithAccuracy .binary64 s m e .exact))) := by
  obtain ⟨hfirst, hexponent⟩ := shift_double (m := m) (e := e) .exact (by omega)
  have hquotient := log2_div hlog
  unfold roundWithAccuracy
  dsimp only
  obtain ⟨hle, hge⟩ := roundedMantissa_bounds (shiftToTargetExponent .binary64 m e .exact).1
  rw [hfirst] at hle hge
  generalize (shiftToTargetExponent .binary64 m e .exact).1.roundedMantissa = r at *
  generalize m / 2 ^ (m.log2 - 52) = q at *
  have hq : q ≠ 0 := by
    rintro rfl
    exact absurd hquotient (by decide)
  obtain ⟨hq52, hq53⟩ := (Nat.log2_eq_iff hq).mp hquotient
  have hr : r ≠ 0 := by omega
  have hrlow : 52 ≤ r.log2 := (Nat.le_log2 hr).mpr (by omega)
  have hrhigh : r.log2 < 54 := (Nat.log2_lt hr).mpr (by omega)
  obtain ⟨hsecond, hlast⟩ := shift_double (m := r)
    (e := (shiftToTargetExponent .binary64 m e .exact).2) .exact (by omega)
  have hresult := log2_div hrlow
  rw [← hsecond] at hresult
  rw [dif_neg]
  · exact ordinary_unpack_pack hresult (by omega) (by omega)
  · intro hz
    rw [hz] at hresult
    exact absurd hresult (by decide)

end Binary

namespace Json.Numeral

open Binary (Ordinary ofDouble)

variable {k : Nat}

theorem powerOfTen_eq (hlow : 22 < k) (hhigh : k ≤ 2048) :
    ofDouble (powerOfTen k) = UnpackedFloat.unpack .binary64 (UnpackedFloat.pack .binary64
      (.roundWithAccuracy .binary64 .positive ((1 <<< 53) * 10 ^ k) (-53) .exact)) := by
  have hvalue : ofDouble (powerOfTen k) = UnpackedFloat.unpack .binary64
      (UnpackedFloat.pack .binary64 (UnpackedFloat.ofScientific .binary64 1 k)) := by
    rw [powerOfTen, Float.ofScientific, dif_neg (by omega)]
    rfl
  have hbits : (2 : Int) ^ Format.binary64.exponentBits = 2048 := rfl
  rw [hvalue, UnpackedFloat.ofScientific, dif_neg (by decide), hbits, if_neg (by omega),
    if_neg (by omega), if_pos (by omega)]
  rfl

theorem ordinary_powerOfTen (h : k ≤ 308) : Ordinary (ofDouble (powerOfTen k)) := by
  rcases Nat.lt_or_ge 22 k with hlarge | hsmall
  · rcases Nat.eq_or_lt_of_le h with rfl | hlast
    · decide +kernel
    · -- A power below two to the last exponent but one is not rounded up to an infinity.
      have hten : 10 ^ k < 2 ^ 1023 :=
        calc 10 ^ k ≤ 10 ^ 307 := Nat.pow_le_pow_right (by decide) (by omega)
          _ < 2 ^ 1023 := by decide +kernel
      have hpos : 0 < 10 ^ k := Nat.pow_pos (by decide)
      have hne : (1 <<< 53) * 10 ^ k ≠ 0 := by omega
      have hlow : 52 ≤ ((1 <<< 53) * 10 ^ k).log2 := (Nat.le_log2 hne).mpr (by omega)
      have hhigh : ((1 <<< 53) * 10 ^ k).log2 < 1076 := by
        rw [Nat.log2_lt hne]
        calc (1 <<< 53) * 10 ^ k < (1 <<< 53) * 2 ^ 1023 := by omega
          _ = 2 ^ 1076 := by decide +kernel
      rw [powerOfTen_eq hlarge (by omega)]
      exact Binary.ordinary_round hlow (by decide) (by omega)
  · have htable : ∀ k < 23, Ordinary (ofDouble (powerOfTen k)) := by decide
    exact htable k (by omega)

end Json.Numeral

end FlowCanvas
