/-!
# Scalars of a layout

The numbers that coordinates are made of.  A program computes with single
precision; everything that is said about a layout for exact numbers uses the
same definitions with another scalar.
-/

namespace Flowchart

/-- What a layout needs of its numbers. -/
class Scalar (α : Type) extends
    Add α, Sub α, Mul α, Div α, NatCast α, OfScientific α where
  /-- The first number is less than the second. -/
  less : α → α → Bool
  /-- The larger of two numbers, and the first one of two that cannot be told
  apart.  Something that is no number gives way to the other operand. -/
  larger : α → α → α
  /-- The smaller of two numbers, and the first one of two that cannot be told
  apart.  Something that is no number gives way to the other operand. -/
  smaller : α → α → α

namespace Scalar

variable {α : Type} [Scalar α]

/-- The sum of numbers, from the left. -/
def sum : List α → α
  | [] => 0.0
  | x :: xs => xs.foldl (· + ·) x

/-- The arithmetic mean of numbers. -/
def mean (xs : List α) : α :=
  sum xs / (xs.length : α)

/-- Half of a number. -/
def half (x : α) : α :=
  x / 2.0

end Scalar

instance : Scalar Float32 where
  natCast n := (UInt64.ofNat n).toFloat32
  less a b := a < b
  larger a b := if a.isNaN then b else if a < b then b else a
  smaller a b := if a.isNaN then b else if b < a then b else a

/-- Exact numbers. -/
instance : Scalar Rat where
  less a b := a < b
  larger a b := if a < b then b else a
  smaller a b := if b < a then b else a

/-! ## Whole numbers in single precision -/

/-- The distance between the numbers of single precision around a whole number.
They have 24 binary digits. -/
def singleUnit (n : Nat) : Nat :=
  Nat.pow 2 (n.log2 - 23)

/-- The number of single precision that is closest to a whole number and, of two
that are equally close, the one that ends with an even digit. -/
def toSingle (n : Nat) : Nat :=
  let unit := singleUnit n
  let below := n / unit
  let rest := n % unit
  if unit < 2 * rest ∨ unit = 2 * rest ∧ below % 2 = 1 then
    (below + 1) * unit
  else
    below * unit

end Flowchart
