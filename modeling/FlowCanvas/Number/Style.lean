import FlowCanvas.Number.Shortest

/-!
How a float is written: its shortest digits in positional or exponent form, or a fixed number of
places. Each output chooses one `NumberStyle`.
-/

namespace FlowCanvas

open Float.Model (UnpackedFloat Format)
open Shortest (Tie Digits)

/-- The decisions of one output format. Exponents between `lowest` and `highest` are written
positionally; without a range, all are. -/
structure NumberStyle where
  format : Format
  range : Option (Int × Int)
  wholePoint : Bool
  tie : Tie
  infinite : UnpackedFloat.Sign → String
  undefined : String

namespace NumberStyle

/-- Singles in a document: positional from 10^-6 to below 10^13, and nothing for the values that
have no digits. -/
def single : NumberStyle :=
  ⟨.binary32, some (-6, 12), true, .even, fun _ => "null", "null"⟩

/-- Doubles in a document: positional from 10^-5 to below 10^16. -/
def double : NumberStyle :=
  ⟨.binary64, some (-5, 15), true, .even, fun _ => "null", "null"⟩

def infinityWord : UnpackedFloat.Sign → String
  | .negative => "-inf"
  | .positive => "inf"

/-- Singles in running text: always positional, without a point where none is needed. -/
def plain : NumberStyle := ⟨.binary32, none, false, .up, infinityWord, "NaN"⟩

def positional (s : NumberStyle) (d : Digits) : List Char :=
  match d.exponent with
  | .negSucc k => '0' :: '.' :: (List.replicate k '0' ++ d.digits)
  | .ofNat k =>
    let whole := d.digits.take (k + 1) ++ List.replicate (k + 1 - d.digits.length) '0'
    match d.digits.drop (k + 1) with
    | [] => if s.wholePoint then whole ++ ['.', '0'] else whole
    | places => whole ++ '.' :: places

def scientific (d : Digits) : List Char :=
  let point := match d.digits.tail with
    | [] => []
    | ds => '.' :: ds
  let sign := if d.exponent < 0 then '-' else '+'
  d.digits.take 1 ++ point ++ 'e' :: sign :: Nat.toDigits 10 d.exponent.natAbs

def digits (s : NumberStyle) (d : Digits) : List Char :=
  match s.range with
  | none => s.positional d
  | some (lowest, highest) =>
    if lowest ≤ d.exponent ∧ d.exponent ≤ highest then s.positional d else scientific d

def signed (sign : UnpackedFloat.Sign) (cs : List Char) : List Char :=
  match sign with
  | .negative => '-' :: cs
  | .positive => cs

def write (s : NumberStyle) : UnpackedFloat → List Char
  | .notANumber => s.undefined.toList
  | .infinity sign => (s.infinite sign).toList
  | .zero sign => signed sign (s.digits Digits.zero)
  | .finite sign m e _ => signed sign (s.digits (Shortest.ofFinite s.format s.tie m e))

end NumberStyle

def roundHalfEven (num den : Nat) : Nat :=
  let q := num / den
  match compare (2 * (num % den)) den with
  | .lt => q
  | .gt => q + 1
  | .eq => q + q % 2

def twoPlaces : UnpackedFloat → List Char
  | .notANumber => "NaN".toList
  | .infinity sign => (NumberStyle.infinityWord sign).toList
  | .zero sign => NumberStyle.signed sign "0.00".toList
  | .finite sign m e _ =>
    let n := roundHalfEven (100 * m * Nat.pow 2 e.toNat) (Nat.pow 2 (-e).toNat)
    let places := Nat.toDigits 10 (n % 100)
    NumberStyle.signed sign
      (Nat.toDigits 10 (n / 100) ++ '.' :: (List.replicate (2 - places.length) '0' ++ places))

end FlowCanvas
