/-!
# Escaped characters of quoted texts

An escape of four hexadecimal digits names a 16-bit unit.  Two units, one from
the leading and one from the trailing half of the surrogates, stand for one
character when they follow each other; a surrogate without its partner stands
for nothing.
-/

namespace Flowchart.Document

/-- One written part of a quoted text. -/
inductive Piece where
  | char (c : Char)
  | unit (n : Nat)
  deriving DecidableEq, Repr

/-- A leading surrogate. -/
def isLeading (n : Nat) : Bool :=
  0xd800 ≤ n && n < 0xdc00

/-- A trailing surrogate. -/
def isTrailing (n : Nat) : Bool :=
  0xdc00 ≤ n && n < 0xe000

/-- The code point that two surrogates stand for: the twenty bits that they
hold, counted from the first code point that has more than sixteen bits. -/
def pairPoint (high low : Nat) : Nat :=
  (high - 0xd800) * 0x400 + (low - 0xdc00) + 0x10000

/-- The characters that the pieces stand for, given the code point of a pair of
surrogates. -/
def joinPieces (point : Nat → Nat → Nat) : List Piece → Option (List Char)
  | [] => some []
  | .char c :: rest => (joinPieces point rest).map (c :: ·)
  | .unit high :: .unit low :: rest =>
    if isLeading high then
      if isTrailing low then
        (joinPieces point rest).map (Char.ofNat (point high low) :: ·)
      else
        none
    else if isTrailing high then
      none
    else
      (joinPieces point (.unit low :: rest)).map (Char.ofNat high :: ·)
  | .unit n :: rest =>
    if isLeading n || isTrailing n then none
    else (joinPieces point rest).map (Char.ofNat n :: ·)

/-- The text that the pieces stand for, given the code point of a pair of
surrogates. -/
def textOfPieces (point : Nat → Nat → Nat) (pieces : List Piece) :
    Option String :=
  (joinPieces point pieces).map String.ofList

/-- The value of a hexadecimal digit. -/
def hexValue? (c : Char) : Option Nat :=
  if '0' ≤ c && c ≤ '9' then some (c.toNat - '0'.toNat)
  else if 'a' ≤ c && c ≤ 'f' then some (c.toNat - 'a'.toNat + 10)
  else if 'A' ≤ c && c ≤ 'F' then some (c.toNat - 'A'.toNat + 10)
  else none

/-- The number written with hexadecimal digits. -/
def hexNumber? (digits : List Char) : Option Nat :=
  digits.foldlM (fun n c => (hexValue? c).map (16 * n + ·)) 0

end Flowchart.Document
