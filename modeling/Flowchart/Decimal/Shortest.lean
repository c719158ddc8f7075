/-!
# Shortest decimals

The shortest decimal that reads back as a given binary number.  The binary
number is `mantissa * 2 ^ exponent`; the reals that round to it form an interval
around it, whose ends belong to it when the mantissa is even.  For one digit,
two digits, and so on, the two neighbours of the number on that decimal grid are
tested against the interval.  All arithmetic is exact, on natural numbers.
-/

namespace Flowchart.Decimal

/-! ## Exact comparison of powers -/

/-- A positive binary number `mantissa * 2 ^ exponent` of a binary format. -/
structure Binary where
  mantissa : Nat
  exponent : Int
  /-- The next smaller number of the format is half as far away as the next
  larger one. -/
  tightBelow : Bool
  deriving DecidableEq, Repr

/-- A decimal number `digits * 10 ^ exponent`. -/
structure Digits where
  digits : Nat
  exponent : Int
  deriving DecidableEq, Repr

/-- The power of two with an exponent, one if the exponent is negative. -/
def twoPower (q : Int) : Nat := Nat.pow 2 q.toNat

/-- The power of ten with an exponent, one if the exponent is negative. -/
def tenPower (s : Int) : Nat := Nat.pow 10 s.toNat

/-- Compares `c * 10 ^ s` with `n * 2 ^ q`. -/
def comparePowers (c : Nat) (s : Int) (n : Nat) (q : Int) : Ordering :=
  compare (c * tenPower s * twoPower (-q)) (n * twoPower q * tenPower (-s))

/-- The largest `c` with `c * 10 ^ s ≤ n * 2 ^ q`. -/
def floorPower (s : Int) (n : Nat) (q : Int) : Nat :=
  n * twoPower q * tenPower (-s) / (tenPower s * twoPower (-q))

/-! ## The search -/

namespace Binary

/-- `c * 10 ^ s` rounds to `b`.  The interval is written in quarters of the
mantissa's unit. -/
def contains (b : Binary) (c : Nat) (s : Int) : Bool :=
  let lower := 4 * b.mantissa - (if b.tightBelow then 1 else 2)
  let upper := 4 * b.mantissa + 2
  let closed := b.mantissa % 2 == 0
  (match comparePowers c s lower (b.exponent - 2) with
    | .lt => false
    | .eq => closed
    | .gt => true) &&
  (match comparePowers c s upper (b.exponent - 2) with
    | .lt => true
    | .eq => closed
    | .gt => false)

/-- The exponent of the leading decimal digit. -/
def leadingExponent (b : Binary) : Int :=
  let numerator := b.mantissa * twoPower b.exponent
  let denominator := twoPower (-b.exponent)
  let estimate : Int := (logTen numerator : Int) - logTen denominator
  if comparePowers 1 estimate b.mantissa b.exponent = .gt then
    estimate - 1
  else
    estimate
where
  /-- One less than the number of decimal digits. -/
  logTen (n : Nat) : Nat := (Nat.toDigits 10 n).length - 1

/-- The neighbour on the grid `10 ^ s` that rounds to `b`: the nearer one of
two, and of two at the same distance the even one. -/
def onGrid? (b : Binary) (s : Int) : Option Nat :=
  let below := floorPower s b.mantissa b.exponent
  match b.contains below s, b.contains (below + 1) s with
  | true, true =>
    match comparePowers (2 * below + 1) s (2 * b.mantissa) b.exponent with
    | .lt => some (below + 1)
    | .gt => some below
    | .eq => some (if below % 2 == 0 then below else below + 1)
  | true, false => some below
  | false, true => some (below + 1)
  | false, false => none

/-- Tries `count` grids, the coarsest one first. -/
def search (b : Binary) : (count : Nat) → (s : Int) → Digits
  | 0, s => ⟨floorPower s b.mantissa b.exponent, s⟩
  | count + 1, s =>
    match b.onGrid? s with
    | some c => ⟨c, s⟩
    | none => search b count (s - 1)

end Binary

/-- Moves the zeros at the end of the digits into the exponent. -/
def Digits.strip (d : Digits) : (fuel : Nat) → Digits
  | 0 => d
  | fuel + 1 =>
    if d.digits % 10 == 0 && d.digits != 0 then
      Digits.strip ⟨d.digits / 10, d.exponent + 1⟩ fuel
    else
      d

/-- The fewest digits, at most `most` of them, that read back as `b`. -/
def Binary.shortest (b : Binary) (most : Nat) : Digits :=
  (b.search most b.leadingExponent).strip most

end Flowchart.Decimal
