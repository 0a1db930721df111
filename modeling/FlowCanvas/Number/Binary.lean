/-!
Binary floating point, read off the bits. A single or double is unpacked into a sign, a mantissa
and a power of two; narrowing and rounding to a whole number are computed on these parts, so that
their values are visible to proofs and the same on every machine.
-/

namespace FlowCanvas.Binary

open Float.Model (UnpackedFloat Format)

def ofSingle (x : Float32) : UnpackedFloat := .unpack .binary32 x.toBits.toBitVec

def ofDouble (x : Float) : UnpackedFloat := .unpack .binary64 x.toBits.toBitVec

def toSingle (u : UnpackedFloat) : Float32 := .ofBits ⟨UnpackedFloat.pack .binary32 u⟩

def narrow (x : Float) : Float32 :=
  match ofDouble x with
  | .finite s m e _ => toSingle (.round .binary32 s m e)
  | u => toSingle u

inductive Rounding
  | down
  | up
  | nearest

/-- Whether the magnitude goes up, for a number that lies `r` out of `unit` above its truncation.
To the nearest, a half goes away from zero. -/
def Rounding.away (rule : Rounding) (sign : UnpackedFloat.Sign) (r unit : Nat) : Bool :=
  match rule, sign with
  | .down, .negative => r ≠ 0
  | .down, .positive => false
  | .up, .negative => false
  | .up, .positive => r ≠ 0
  | .nearest, _ => unit ≤ 2 * r

def whole (rule : Rounding) (x : Float32) : Float32 :=
  match ofSingle x with
  | .finite s m (.negSucc k) _ =>
    let unit := Nat.pow 2 (k + 1)
    toSingle (.round .binary32 s (m / unit + (rule.away s (m % unit) unit).toNat) 0)
  | _ => x

def isFinite : UnpackedFloat → Bool
  | .finite .. => true
  | .zero _ => true
  | _ => false

end FlowCanvas.Binary
