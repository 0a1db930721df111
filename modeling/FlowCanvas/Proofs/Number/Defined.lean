import FlowCanvas.Proofs.Number.Ordinary
import FlowCanvas.Scalar

/-! Numbers that are read are numbers. Rounding never loses the value of a float, and neither does a
product or a quotient with a float that is finite and not zero. So whatever a numeral stands for is
a number or infinite, and then it is above zero or it is not. -/

namespace FlowCanvas

open Float.Model (UnpackedFloat Format)

namespace Binary

/-- A number, which may be infinite. -/
def Defined (u : UnpackedFloat) : Prop := u ≠ .notANumber

variable {f : Format} {u v : UnpackedFloat}

theorem defined_zero (s : UnpackedFloat.Sign) : Defined (.zero s) := by
  rintro ⟨⟩

theorem defined_infinity (s : UnpackedFloat.Sign) : Defined (.infinity s) := by
  rintro ⟨⟩

theorem defined_finite {s : UnpackedFloat.Sign} {m : Nat} {e : Int} (hm : 0 < m) :
    Defined (.finite s m e hm) := by
  rintro ⟨⟩

theorem defined_of_isFinite (h : isFinite u = true) : Defined u := by
  rintro rfl
  cases h

theorem defined_ite {c : Prop} [Decidable c] (hu : Defined u) (hv : Defined v) :
    Defined (if c then u else v) := by
  split
  · exact hu
  · exact hv

theorem defined_dite {c : Prop} [Decidable c] {g : c → UnpackedFloat} {g' : ¬ c → UnpackedFloat}
    (hg : ∀ h, Defined (g h)) (hg' : ∀ h, Defined (g' h)) :
    Defined (if h : c then g h else g' h) := by
  split
  · exact hg _
  · exact hg' _

theorem unpackMantissa_pack (hu : Defined u)
    (hfull : UnpackedFloat.unpackExponent (u.pack f) = -1#_) :
    UnpackedFloat.unpackMantissa (u.pack f) = 0#_ := by
  cases u with
  | notANumber => exact absurd rfl hu
  | infinity s => exact UnpackedFloat.unpackMantissa_packComponents
  | zero s => exact UnpackedFloat.unpackMantissa_packComponents
  | finite s m e hm =>
    unfold UnpackedFloat.pack at hfull ⊢
    dsimp only at hfull ⊢
    split at hfull
    · -- An exponent that is too large makes the number infinite.
      rename_i hlarge
      rw [if_pos hlarge]
      exact UnpackedFloat.unpackMantissa_packComponents
    · split at hfull
      · rw [UnpackedFloat.unpackExponent_packComponents] at hfull
        exact absurd hfull (ofNat_ne_full (by omega))
      · have hbits : 0 + 1 < 2 ^ f.exponentBits := Nat.one_lt_two_pow (Nat.pos_iff_ne_zero.mp f.he)
        rw [UnpackedFloat.unpackExponent_packComponents] at hfull
        exact absurd hfull (ofNat_ne_full hbits)

theorem Defined.unpack_pack (hu : Defined u) : Defined (.unpack f (u.pack f)) := by
  unfold UnpackedFloat.unpack
  dsimp only
  by_cases hfull : UnpackedFloat.unpackExponent (u.pack f) = -1#_
  · rw [if_pos hfull, if_pos (unpackMantissa_pack hu hfull)]
    exact defined_infinity _
  · rw [if_neg hfull]
    exact defined_ite (defined_dite (fun _ => defined_zero _) fun _ => defined_finite _)
      (defined_finite _)

theorem defined_roundWithAccuracy (f : Format) (s : UnpackedFloat.Sign) (m : Nat) (e : Int)
    (acc : UnpackedFloat.Accuracy) : Defined (.roundWithAccuracy f s m e acc) :=
  defined_dite (fun _ => defined_zero _) fun _ => defined_finite _

theorem defined_round (f : Format) (s : UnpackedFloat.Sign) (m : Nat) (e : Int) :
    Defined (.round f s m e) :=
  defined_roundWithAccuracy _ _ _ _ _

theorem Defined.mul (hu : Defined u) (hv : Ordinary v) : Defined (u.mul f v) := by
  cases v with
  | finite s m e hm =>
    cases u with
    | notANumber => exact absurd rfl hu
    | infinity sign => exact defined_infinity _
    | zero sign => exact defined_zero _
    | finite sign n k hn => exact defined_roundWithAccuracy _ _ _ _ _
  | _ => exact hv.elim

theorem Defined.div (hu : Defined u) (hv : Ordinary v) : Defined (u.div f v) := by
  cases v with
  | finite s m e hm =>
    cases u with
    | notANumber => exact absurd rfl hu
    | infinity sign => exact defined_infinity _
    | zero sign => exact defined_zero _
    | finite sign n k hn => exact defined_roundWithAccuracy _ _ _ _ _
  | _ => exact hv.elim

theorem Defined.neg (hu : Defined u) : Defined u.neg := by
  cases u with
  | notANumber => exact absurd rfl hu
  | infinity sign => exact defined_infinity _
  | zero sign => exact defined_zero _
  | finite sign m e hm => exact defined_finite hm

theorem defined_ofScientific (f : Format) (m : Nat) (e : Int) : Defined (.ofScientific f m e) := by
  unfold UnpackedFloat.ofScientific
  refine defined_dite (fun _ => defined_zero _) fun _ => ?_
  refine defined_ite (defined_infinity _) (defined_ite (defined_zero _) ?_)
  exact defined_ite (defined_roundWithAccuracy _ _ _ _ _) (defined_roundWithAccuracy _ _ _ _ _)

theorem defined_normalize (f : Format) (m : Int) (e : Int) (s : UnpackedFloat.Sign) :
    Defined (.normalize f m e s) := by
  unfold UnpackedFloat.normalize
  split
  · exact defined_round _ _ _ _
  · exact defined_zero _
  · exact defined_round _ _ _ _

section Floats

variable {x : Float}

theorem defined_toSingle (hu : Defined u) : Defined (ofSingle (toSingle u)) :=
  hu.unpack_pack.unpack_pack

theorem defined_narrow (hx : Defined (ofDouble x)) : Defined (ofSingle (narrow x)) := by
  unfold narrow
  split
  · exact defined_toSingle (defined_round _ _ _ _)
  · exact defined_toSingle hx

theorem defined_double_ofNat (n : Nat) : Defined (ofDouble (Float.ofNat n)) := by
  change Defined (ofDouble (Float.ofScientific n false 0))
  unfold Float.ofScientific
  split
  · have hword : Defined (ofDouble n.toUInt64.toFloat) := (defined_normalize _ _ _ _).unpack_pack
    have hone : Ordinary (ofDouble (.ofBits 0x3FF0000000000000)) := by decide
    exact (hword.mul hone).unpack_pack
  · exact (defined_ofScientific _ _ _).unpack_pack

theorem defined_single_ofNat (n : Nat) : Defined (ofSingle (Float32.ofNat n)) := by
  change Defined (ofSingle (Float32.ofScientific n false 0))
  unfold Float32.ofScientific
  split
  · have hword : Defined (ofSingle n.toUInt64.toFloat32) := (defined_normalize _ _ _ _).unpack_pack
    have hone : Ordinary (ofSingle (.ofBits 0x3F800000)) := by decide
    exact (hword.mul hone).unpack_pack
  · exact (defined_ofScientific _ _ _).unpack_pack

theorem defined_single_ofInt (i : Int) : Defined (ofSingle (Float32.ofInt i)) := by
  cases i with
  | ofNat n => exact defined_single_ofNat n
  | negSucc n => exact (defined_single_ofNat (n + 1)).neg.unpack_pack

end Floats

section Order

theorem Defined.zero_lt {s : UnpackedFloat.Sign} (hu : Defined u) (h : u.le (.zero s) = false) :
    (UnpackedFloat.zero s).lt u = true := by
  cases u with
  | notANumber => exact absurd rfl hu
  | infinity t =>
    cases t with
    | positive => rfl
    | negative => cases h
  | zero t => cases h
  | finite t m e hm =>
    cases t with
    | positive => rfl
    | negative => cases h

variable {x y : Float32}

theorem single_le_iff : x ≤ y ↔ (ofSingle x).le (ofSingle y) = true := decide_eq_true_iff

theorem single_lt_iff : x < y ↔ (ofSingle x).lt (ofSingle y) = true := decide_eq_true_iff

theorem ofSingle_zero : ofSingle Scalar.zero = .zero .positive := rfl

theorem Defined.zero_lt_single (hx : Defined (ofSingle x)) (h : ¬ x ≤ Scalar.zero) :
    Scalar.zero < x := by
  have hle : (ofSingle x).le (ofSingle Scalar.zero) = false :=
    Bool.eq_false_iff.mpr fun hle => h (single_le_iff.mpr hle)
  refine single_lt_iff.mpr ?_
  rw [ofSingle_zero] at hle ⊢
  exact hx.zero_lt hle

end Order

end Binary

namespace Json.Numeral

open Binary (Defined ofDouble ofSingle)

theorem scale_defined {x y : Float} {e : Int} (hx : Defined (ofDouble x)) (h : scale x e = some y) :
    Defined (ofDouble y) := by
  fun_induction scale x e with
  | case1 x e hle hup z hfinite =>
    rw [← Option.some.inj h]
    exact Binary.defined_of_isFinite hfinite
  | case2 => cases h
  | case3 x e hle hdown =>
    cases h
    exact (hx.div (ordinary_powerOfTen hle)).unpack_pack
  | case4 =>
    cases h
    exact hx
  | case5 => cases h
  | case6 x e hlarge hne hdown ih =>
    exact ih (hx.div (ordinary_powerOfTen (by decide))).unpack_pack h

theorem withSign_defined {negative : Bool} {x : Float} (hx : Defined (ofDouble x)) :
    Defined (ofDouble (withSign negative x)) := by
  unfold withSign
  split
  · exact hx.neg.unpack_pack
  · exact hx

theorem strict?_defined {n : Numeral} {m : Number} (h : n.strict? = some m) :
    Defined (ofSingle m.toSingle) := by
  unfold strict? at h
  dsimp only at h
  split at h
  · cases h
    exact Binary.defined_single_ofInt _
  · split at h
    · cases h
      exact Binary.defined_narrow (withSign_defined (Binary.defined_double_ofNat _))
    · obtain ⟨x, hx, rfl⟩ := Option.map_eq_some_iff.mp h
      exact Binary.defined_narrow
        (withSign_defined (scale_defined (Binary.defined_double_ofNat _) hx))

end Json.Numeral

end FlowCanvas
