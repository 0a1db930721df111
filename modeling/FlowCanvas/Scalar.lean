import FlowCanvas.Number.Literal

/-!
The numbers that coordinates and sizes are made of. All of the arrangement is written once, over
any `Scalar`: no law is asked for, only the operations. `Float32` is the instance that runs, and
`Rat` is the same arithmetic without rounding.
-/

namespace FlowCanvas

class Scalar (α : Type) extends Add α, Sub α, Mul α, Div α, LT α, LE α, BEq α where
  ofNat : Nat → α
  floor : α → α
  ceil : α → α
  round : α → α
  abs : α → α
  isFinite : α → Bool
  ofLiteral? : Literal → Option α
  decLt : ∀ x y : α, Decidable (x < y)
  decLe : ∀ x y : α, Decidable (x ≤ y)

namespace Scalar

instance : Scalar Float32 where
  ofNat := Float32.ofNat
  floor := Binary.whole .down
  ceil := Binary.whole .up
  round := Binary.whole .nearest
  abs := Float32.abs
  isFinite := fun x => Binary.isFinite (Binary.ofSingle x)
  ofLiteral? := fun l => some l.toSingle
  decLt := fun x y => inferInstanceAs (Decidable (x < y))
  decLe := fun x y => inferInstanceAs (Decidable (x ≤ y))

instance : Scalar Rat where
  ofNat := fun n => n
  floor := fun x => x.floor
  ceil := fun x => x.ceil
  round := fun x => if x < 0 then (x - 1 / 2).ceil else (x + 1 / 2).floor
  abs := fun x => if x < 0 then -x else x
  isFinite := fun _ => true
  ofLiteral? := Literal.toRat?
  decLt := fun x y => inferInstanceAs (Decidable (x < y))
  decLe := fun x y => inferInstanceAs (Decidable (x ≤ y))

variable {α : Type} [Scalar α]

instance (x y : α) : Decidable (x < y) := decLt x y

instance (x y : α) : Decidable (x ≤ y) := decLe x y

def zero : α := ofNat 0

def two : α := ofNat 2

/-- The lesser of two scalars. An operand that differs from itself is no number and gives way to
the other one, and of two equal operands the second is taken. -/
def smaller (x y : α) : α := if y == y then if x < y then x else y else x

def larger (x y : α) : α := if y == y then if y < x then x else y else x

/-- The sum from left to right, starting with the first term, so that no sign of zero is lost. -/
def total : List α → α
  | [] => zero
  | x :: xs => xs.foldl (· + ·) x

def mean (xs : List α) : α := total xs / ofNat xs.length

def least? : List α → Option α
  | [] => none
  | x :: xs => some (xs.foldl smaller x)

def greatest? : List α → Option α
  | [] => none
  | x :: xs => some (xs.foldl larger x)

theorem smaller_rat (x y : Rat) : smaller x y = if x < y then x else y := by
  simp [smaller]

theorem larger_rat (x y : Rat) : larger x y = if y < x then x else y := by
  simp [larger]

end Scalar

end FlowCanvas
