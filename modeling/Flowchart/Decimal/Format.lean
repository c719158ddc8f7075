import Flowchart.Decimal.Shortest

/-!
# Decimal text of binary floating-point numbers

How a number is written: the shortest digits that read back, with a point and at
least one decimal while the leading digit stands near the point, and with an
exponent otherwise.
-/

namespace Flowchart.Decimal

/-- A binary interchange format, and the range of leading exponents that are
written without an exponent. -/
structure Format where
  fractionBits : Nat
  exponentBits : Nat
  /-- Digits that always suffice to read a number back. -/
  digits : Nat
  lowestPlain : Int
  highestPlain : Int

/-- The 32-bit format: plain from `0.000001` up to thirteen digits before the
point. -/
def single : Format := ⟨23, 8, 9, -6, 12⟩

/-- The 64-bit format: plain from `0.00001` up to sixteen digits before the
point. -/
def double : Format := ⟨52, 11, 17, -5, 15⟩

/-- What a bit pattern stands for. -/
inductive Reading where
  | zero
  | finite (b : Binary)
  | notFinite
  deriving DecidableEq, Repr

namespace Format

/-- Splits a bit pattern into its sign and the magnitude that it stands for. -/
def read (f : Format) (bits : Nat) : Bool × Reading :=
  let fraction := bits % Nat.pow 2 f.fractionBits
  let exponent := bits / Nat.pow 2 f.fractionBits % Nat.pow 2 f.exponentBits
  let negative := bits / Nat.pow 2 (f.fractionBits + f.exponentBits) % 2 == 1
  let bias : Int := Nat.pow 2 (f.exponentBits - 1) - 1 + f.fractionBits
  if exponent == Nat.pow 2 f.exponentBits - 1 then
    (negative, .notFinite)
  else if exponent == 0 then
    (negative,
      if fraction == 0 then .zero else .finite ⟨fraction, 1 - bias, false⟩)
  else
    let mantissa := Nat.pow 2 f.fractionBits + fraction
    (negative,
      .finite ⟨mantissa, exponent - bias, fraction == 0 && exponent != 1⟩)

/-- The text of a positive number. -/
def layout (f : Format) (d : Digits) : String :=
  let digits := Nat.toDigits 10 d.digits
  let leading : Int := d.exponent + digits.length - 1
  if leading < f.lowestPlain || f.highestPlain < leading then
    let tail := digits.drop 1
    let sign := if leading < 0 then '-' else '+'
    String.ofList (digits.take 1 ++
      (if tail.isEmpty then [] else '.' :: tail) ++ ['e', sign] ++
      Nat.toDigits 10 leading.natAbs)
  else if 0 ≤ d.exponent then
    String.ofList (digits ++ List.replicate d.exponent.toNat '0' ++ ['.', '0'])
  else if leading < 0 then
    String.ofList
      ('0' :: '.' :: List.replicate (-leading - 1).toNat '0' ++ digits)
  else
    let whole := (leading + 1).toNat
    String.ofList (digits.take whole ++ '.' :: digits.drop whole)

/-- The text of the number with the given bits, or nothing for a number that is
not finite. -/
def text? (f : Format) (bits : Nat) : Option String :=
  let (negative, reading) := f.read bits
  let sign := if negative then "-" else ""
  match reading with
  | .zero => some (sign ++ "0.0")
  | .finite b => some (sign ++ f.layout (b.shortest f.digits))
  | .notFinite => none

end Format

/-- The text of a 32-bit number. -/
def singleText? (x : Float32) : Option String :=
  single.text? x.toBits.toNat

/-- The text of a 64-bit number. -/
def doubleText? (x : Float) : Option String :=
  double.text? x.toBits.toNat

example : single.text? 0x43a20000 = some "324.0" := by decide +kernel
example : single.text? 0x00000001 = some "1e-45" := by decide +kernel
example : single.text? 0x7f7fffff = some "3.4028235e+38" := by decide +kernel
example : double.text? 0x0000000000000001 = some "5e-324" := by decide +kernel
example : double.text? 0x3fb999999999999a = some "0.1" := by decide +kernel
example : double.text? 0x8000000000000000 = some "-0.0" := by decide +kernel

end Flowchart.Decimal
