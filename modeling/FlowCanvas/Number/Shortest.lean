import FlowCanvas.Number.Binary

/-!
The fewest decimal digits that read back. Around a finite float lies the interval of reals that
round to it; the coarsest decimal grid with a point in that interval gives the digits. Everything
is exact: a value is a fraction of natural numbers.
-/

namespace FlowCanvas.Shortest

open Float.Model (Format)

/-- A positive value and the ends of its rounding interval, over one denominator. -/
structure Interval where
  lower : Nat
  value : Nat
  upper : Nat
  denominator : Nat
  closed : Bool

/-- The interval of `m · 2^e`. Half a unit lies above; below it is a quarter where the mantissa is
the least one of its exponent, because the neighbour is then half as far away. The ends belong to
the interval when the mantissa is even. -/
def interval (f : Format) (m : Nat) (e : Int) : Interval :=
  let low := if m = Nat.pow 2 f.mantissaBitsWithoutImplicit ∧ f.minExponent < e then 1 else 2
  let scale := Nat.pow 2 (e - 2).toNat
  ⟨(4 * m - low) * scale, 4 * m * scale, (4 * m + 2) * scale, Nat.pow 2 (2 - e).toNat, m % 2 = 0⟩

def Interval.contains (i : Interval) (x : Nat) : Bool :=
  if i.closed then i.lower ≤ x ∧ x ≤ i.upper else i.lower < x ∧ x < i.upper

def Interval.inUnits (i : Interval) (k : Int) : Interval :=
  let s := Nat.pow 10 (-k).toNat
  { i with
    lower := i.lower * s
    value := i.value * s
    upper := i.upper * s
    denominator := i.denominator * Nat.pow 10 k.toNat }

inductive Tie
  | even
  | up

/-- A multiple of the unit inside the interval, the nearest one to the value. Only the two
neighbours of the value can be it. -/
def Interval.nearest? (i : Interval) (tie : Tie) : Option Nat :=
  let d := i.denominator
  let n := i.value / d
  match i.contains (n * d), i.contains ((n + 1) * d) with
  | true, true =>
    match compare (2 * i.value) ((2 * n + 1) * d), tie with
    | .lt, _ => some n
    | .gt, _ => some (n + 1)
    | .eq, .up => some (n + 1)
    | .eq, .even => some (if n % 2 = 0 then n else n + 1)
  | true, false => some n
  | false, true => some (n + 1)
  | false, false => none

def digitCount (n : Nat) : Nat := (Nat.toDigits 10 n).length

def Interval.magnitude (i : Interval) : Int :=
  if i.denominator ≤ i.value then digitCount (i.value / i.denominator)
  else 1 - digitCount (i.denominator / i.value)

/-- Digits `d₁d₂…` and the exponent of the first one: `d₁.d₂… · 10^exponent`. -/
structure Digits where
  digits : List Char
  exponent : Int

def Digits.zero : Digits := ⟨['0'], 0⟩

def Digits.ofNat (n : Nat) (k : Int) : Digits :=
  let ds := Nat.toDigits 10 n
  ⟨(ds.reverse.dropWhile (· == '0')).reverse, k + ds.length - 1⟩

/-- The shortest digits of `m · 2^e`. Eighteen grids suffice, since seventeen digits tell any two
doubles apart. -/
def ofFinite (f : Format) (tie : Tie) (m : Nat) (e : Int) : Digits :=
  let i := interval f m e
  let top := i.magnitude
  let hit := (List.range 18).findSome? fun n : Nat =>
    let k : Int := top - 1 - n
    ((i.inUnits k).nearest? tie).map fun x => Digits.ofNat x k
  hit.getD Digits.zero

end FlowCanvas.Shortest
