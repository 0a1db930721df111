import FlowCanvas.Json.Value
import FlowCanvas.Number.Literal

/-!
What the parts of a JSON text spell. A string is spelled by characters and by sixteen-bit units in
hexadecimal, of which two may form one character; a numeral is spelled by decimal digits.
-/

namespace FlowCanvas.Json

def hexValue? (c : Char) : Option Nat :=
  if c.isDigit then some (c.toNat - '0'.toNat)
  else if 'a' ≤ c ∧ c ≤ 'f' then some (c.toNat - 'a'.toNat + 10)
  else if 'A' ≤ c ∧ c ≤ 'F' then some (c.toNat - 'A'.toNat + 10)
  else none

def hexNumber? : List Char → Option Nat
  | cs => cs.foldlM (fun n c => (hexValue? c).map (16 * n + ·)) 0

inductive Piece
  | char (c : Char)
  | unit (u : Nat)

def isLeading (u : Nat) : Bool := 0xD800 ≤ u ∧ u < 0xDC00

def isTrailing (u : Nat) : Bool := 0xDC00 ≤ u ∧ u < 0xE000

abbrev Pairing := Nat → Nat → Nat

def Pairing.exact : Pairing := fun u v => 0x10000 + (u - 0xD800) * 0x400 + (v - 0xDC00)

/-- The bits of both units laid over each other. This is the encoded code point on the odd planes,
and on an even plane it is the code point at the same place of the plane below. -/
def Pairing.overlaid : Pairing := fun u v => ((u - 0xD800) * 0x400) ||| (0x10000 + (v - 0xDC00))

/-- The characters that pieces spell. A leading unit and the trailing one right after it are one
character; alone they are none. -/
def spell? (pair : Pairing) : List Piece → Option (List Char)
  | [] => some []
  | .char c :: ps => (spell? pair ps).map (c :: ·)
  | .unit u :: .unit v :: ps =>
    if isLeading u then
      if isTrailing v then (spell? pair ps).map (Char.ofNat (pair u v) :: ·) else none
    else if isTrailing u then none
    else (spell? pair (.unit v :: ps)).map (Char.ofNat u :: ·)
  | .unit u :: ps =>
    if isLeading u || isTrailing u then none else (spell? pair ps).map (Char.ofNat u :: ·)

def spelled? (pair : Pairing) (ps : List Piece) : Option String :=
  (spell? pair ps).map String.ofList

/-- The parts of a decimal numeral. Absent places or an absent exponent are not the same as empty
ones: with either of them the numeral is a float. -/
structure Numeral where
  negative : Bool
  whole : List Char
  places : Option (List Char)
  exponent : Option (Bool × List Char)

namespace Numeral

def isWhole (n : Numeral) : Bool := n.places.isNone && n.exponent.isNone

def exponentValue (n : Numeral) : Int :=
  match n.exponent with
  | none => 0
  | some (negative, ds) =>
    let e := Literal.continueDigits 0 ds
    if negative then -e else e

/-- Takes digits up as long as the number fits sixty-four bits, and counts those that are left. -/
def absorb (n : Nat) : List Char → Nat × Nat
  | [] => (n, 0)
  | c :: cs =>
    let next := 10 * n + Literal.digitValue c
    if next < 0x10000000000000000 then absorb next cs else (n, cs.length + 1)

def powerOfTen (k : Nat) : Float := Float.ofScientific 1 false k

def scale (x : Float) (e : Int) : Option Float :=
  if e.natAbs ≤ 308 then
    if 0 ≤ e then
      let y := x * powerOfTen e.natAbs
      if Binary.isFinite (Binary.ofDouble y) then some y else none
    else some (x / powerOfTen e.natAbs)
  else if x == 0 then some x
  else if 0 ≤ e then none
  else scale (x / powerOfTen 308) (e + 308)
termination_by e.natAbs
decreasing_by omega

def withSign (negative : Bool) (x : Float) : Float := if negative then -x else x

/-- The value in a strict text. A whole numeral in the sixty-four bit range is a whole number, but
a negative zero is a float. All else is a float: the leading digits that fit sixty-four bits, scaled
by a power of ten. -/
def strict? (n : Numeral) : Option Number :=
  let (m, left) := absorb 0 n.whole
  if n.isWhole ∧ left = 0 ∧ (!n.negative ∨ (0 < m ∧ m ≤ 0x8000000000000000)) then
    some (.integer (if n.negative then -m else m))
  else
    let places := n.places.getD []
    let (m, unused) := absorb m places
    let e : Int := left + unused - places.length + n.exponentValue
    if n.isWhole ∧ left = 0 then some (.double (withSign n.negative (Float.ofNat m)))
    else (scale (Float.ofNat m) e).map fun x => .double (withSign n.negative x)

/-- The value in a relaxed text. A whole numeral must fit sixty-four bits with a sign, and all else
is the nearest double, which must be finite. -/
def relaxed? (n : Numeral) : Option Number :=
  let places := n.places.getD []
  let m := Literal.continueDigits 0 (n.whole ++ places)
  if n.isWhole then
    let i : Int := if n.negative then -m else m
    if -0x8000000000000000 ≤ i ∧ i < 0x8000000000000000 then some (.integer i) else none
  else
    let x := Literal.toDouble n.negative m (n.exponentValue - places.length)
    if Binary.isFinite (Binary.ofDouble x) then some (.double x) else none

end Numeral

def ofNumber : Option Number → Json
  | some n => .number n
  | none => .unreadable

end FlowCanvas.Json
