import FlowCanvas.Number.Binary

/-!
Number literals. A literal is read from text into a sign, decimal digits and a power of ten, or one
of the names of the values that have no digits; what it is worth in a number system is decided
later.
-/

namespace FlowCanvas

/-- `±digits · 10^exponent`, an infinity, or a value that is no number. -/
inductive Literal
  | finite (negative : Bool) (digits : Nat) (exponent : Int)
  | infinite (negative : Bool)
  | undefined
  deriving DecidableEq

namespace Literal

def digitValue (c : Char) : Nat := c.toNat - '0'.toNat

/-- The number that a run of decimal digits continues, `n` being what was read before. -/
def continueDigits (n : Nat) (cs : List Char) : Nat :=
  cs.foldl (fun n c => 10 * n + digitValue c) n

def digitRun (cs : List Char) : List Char × List Char :=
  (cs.takeWhile Char.isDigit, cs.dropWhile Char.isDigit)

theorem digitRun_append (cs : List Char) : (digitRun cs).1 ++ (digitRun cs).2 = cs :=
  List.takeWhile_append_dropWhile

theorem digitRun_length (cs : List Char) :
    (digitRun cs).1.length + (digitRun cs).2.length = cs.length := by
  rw [← List.length_append, digitRun_append]

def sign : List Char → Bool × List Char
  | '-' :: cs => (true, cs)
  | '+' :: cs => (false, cs)
  | cs => (false, cs)

def exponent? : List Char → Option Int
  | [] => some 0
  | c :: cs =>
    if c = 'e' ∨ c = 'E' then
      let (negative, ds) := sign cs
      if ds = [] ∨ !ds.all Char.isDigit then none
      else
        let n := continueDigits 0 ds
        some (if negative then -(n : Int) else n)
    else none

def fraction : List Char → List Char × List Char
  | '.' :: cs => digitRun cs
  | cs => ([], cs)

def named? (negative : Bool) (cs : List Char) : Option Literal :=
  match String.ofList (cs.map Char.toLower) with
  | "inf" => some (.infinite negative)
  | "infinity" => some (.infinite negative)
  | "nan" => some .undefined
  | _ => none

/-- Reads a whole text: a sign, then digits with an optional point and exponent, at least one
digit before or after the point, or a name in any case. -/
def read? (cs : List Char) : Option Literal :=
  let (negative, body) := sign cs
  let (whole, rest) := digitRun body
  let (places, tail) := fraction rest
  if whole = [] ∧ places = [] then named? negative body
  else (exponent? tail).map fun e =>
    .finite negative (continueDigits 0 (whole ++ places)) (e - places.length)

def toSingle : Literal → Float32
  | .finite negative digits e =>
    let x := Float32.ofScientific digits (e < 0) e.natAbs
    if negative then -x else x
  | .infinite negative => Binary.toSingle (.infinity (if negative then .negative else .positive))
  | .undefined => Binary.toSingle .notANumber

def toDouble (negative : Bool) (digits : Nat) (e : Int) : Float :=
  let x := Float.ofScientific digits (e < 0) e.natAbs
  if negative then -x else x

def toRat? : Literal → Option Rat
  | .finite negative digits e =>
    let x : Rat := if e < 0 then (digits : Rat) / 10 ^ e.natAbs else (digits : Rat) * 10 ^ e.natAbs
    some (if negative then -x else x)
  | _ => none

end Literal

end FlowCanvas
