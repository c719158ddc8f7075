import Flowchart.Document.Basic

/-!
# Numerals

A numeral is a number as it is written in decimal digits.  Its exact value is a
whole number when it has neither a fraction nor an exponent and fits one of the
two 64-bit integer ranges.  Every other numeral stands for a 64-bit
floating-point number.

There are two ways to such a number.  `Numeral.nearest?` rounds the exact value
once.  `Numeral.scaled?` collects leading digits while they fit 64 bits and then
multiplies or divides by one power of ten, so that it may differ from the
nearest number in the last place; it is the rule of strict documents.
-/

namespace Flowchart.Document

/-! ## Numerals -/

/-- The exponent part of a numeral. -/
structure Exponent where
  negative : Bool
  digits : List Char
  deriving DecidableEq, Repr

/-- A number as it is written. -/
structure Numeral where
  negative : Bool
  whole : List Char
  fraction : List Char
  exponent : Option Exponent
  deriving DecidableEq, Repr

/-- The number that decimal digits stand for. -/
def decimalValue (digits : List Char) : Nat :=
  digits.foldl (fun n c => 10 * n + (c.toNat - '0'.toNat)) 0

/-- The largest unsigned 64-bit number. -/
def maxUnsigned : Nat := UInt64.size - 1

/-- The size of the smallest signed 64-bit number. -/
def minSignedSize : Nat := 9223372036854775808

/-- The largest signed 32-bit number. -/
def maxExponent : Nat := 2147483647

/-! ## Scaling by powers of ten -/

/-- A floating-point number with a sign. -/
def withSign (negative : Bool) (x : Float) : Float :=
  if negative then -x else x

/-- The power `10 ^ n`, rounded. -/
def powerOfTen (n : Nat) : Float :=
  Float.ofScientific 1 false n

/-- Divides by `10 ^ n`, in portions of at most `10 ^ 308`. -/
def divideByPower (x : Float) (n : Nat) : Float :=
  if n ≤ 308 then x / powerOfTen n
  else if x == 0 then x
  else divideByPower (x / powerOfTen 308) (n - 308)
termination_by n

/-- `significand * 10 ^ exponent` by one multiplication or by divisions, if it
is finite. -/
def scale? (significand : Nat) (exponent : Int) : Option Float :=
  let x := (UInt64.ofNat significand).toFloat
  if exponent < 0 then
    some (divideByPower x (-exponent).toNat)
  else if exponent ≤ 308 then
    let y := x * powerOfTen exponent.toNat
    if y.isInf then none else some y
  else if significand = 0 then
    some 0
  else
    none

/-- Appends digits to a number while it stays an unsigned 64-bit number.
Returns the number and the digits that are left. -/
def absorb (n : Nat) : List Char → Nat × List Char
  | [] => (n, [])
  | c :: cs =>
    let next := 10 * n + (c.toNat - '0'.toNat)
    if next ≤ maxUnsigned then absorb next cs else (n, c :: cs)

/-! ## Values of numerals -/

namespace Numeral

/-- A numeral without fraction and exponent. -/
def isPlain (n : Numeral) : Bool :=
  n.fraction.isEmpty && n.exponent.isNone

/-- The floating-point value by collecting digits and scaling once. -/
def scaled? (n : Numeral) : Option Float :=
  let (whole, wholeLeft) := absorb 0 n.whole
  let (significand, fractionLeft) := absorb whole n.fraction
  let shift : Int :=
    (wholeLeft.length : Int) - (n.fraction.length - fractionLeft.length)
  let magnitude? :=
    match n.exponent with
    | none => scale? significand shift
    | some e =>
      let size := decimalValue e.digits
      if size ≤ maxExponent then
        scale? significand (if e.negative then shift - size else shift + size)
      else if significand = 0 || e.negative then
        some 0
      else
        none
  magnitude?.map (withSign n.negative)

/-- The nearest floating-point number, if it is finite. -/
def nearest? (n : Numeral) : Option Float :=
  let digits := decimalValue (n.whole ++ n.fraction)
  let power : Int :=
    match n.exponent with
    | none => 0
    | some e =>
      if e.negative then -(decimalValue e.digits : Int)
      else decimalValue e.digits
  let exponent := power - n.fraction.length
  let size : Int := (Nat.toDigits 10 digits).length + exponent
  if digits = 0 || size < -400 then
    some (withSign n.negative 0)
  else if 400 < size then
    none
  else
    let x := Float.ofScientific digits (exponent < 0) exponent.natAbs
    if x.isInf then none else some (withSign n.negative x)

/-- The value in a strict document, if it has one: whole numbers that fit 64
bits are exact, and the negative zero is a floating-point number. -/
def number? (n : Numeral) : Option Number :=
  let whole := decimalValue n.whole
  if n.isPlain && !n.negative && whole ≤ maxUnsigned then
    some (.int whole)
  else if n.isPlain && n.negative && whole ≠ 0 && whole ≤ minSignedSize then
    some (.int (-whole))
  else
    n.scaled?.map .double

end Numeral

end Flowchart.Document
