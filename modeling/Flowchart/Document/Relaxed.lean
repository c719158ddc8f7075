import Flowchart.Document.Draft
import Flowchart.Document.Numeral
import Flowchart.Document.Surrogate
import Flowchart.Text.Letter

/-!
# Relaxed documents

The notation of documents written by hand: comments, keys without quotes, quotes
of two kinds, hexadecimal and signed numbers, a comma before a closing bracket,
and a number of maps and lists around a leaf that has no limit.
-/

namespace Flowchart

namespace Document.Relaxed

/-! ## Gaps between tokens -/

/-- The characters that end a line. -/
def isLineEnd (c : Char) : Bool :=
  c = '\n' || c = '\r' || c = '\u2028' || c = '\u2029'

/-- The blanks between tokens: the line ends, the space separators of Unicode
and a few controls. -/
def isSpace (c : Char) : Bool :=
  isLineEnd c || c = '\t' || c = '\x0b' || c = '\x0c' || c = ' ' ||
    c = '\u00a0' || c = '\ufeff' || c = '\u1680' ||
    ('\u2000' ≤ c && c ≤ '\u200a') || c = '\u202f' || c = '\u205f' ||
    c = '\u3000'

/-- Where the text between two tokens stands. -/
inductive Gap where
  | blank
  | lineComment
  | blockComment
  deriving DecidableEq, Repr

/-- Passes over blanks and comments.  A block comment has to be closed. -/
def skipGap : Gap → List Char → Option (List Char)
  | .blank, '/' :: '/' :: rest => skipGap .lineComment rest
  | .blank, '/' :: '*' :: rest => skipGap .blockComment rest
  | .blank, c :: rest =>
    if isSpace c then skipGap .blank rest else some (c :: rest)
  | .lineComment, c :: rest =>
    skipGap (if isLineEnd c then .blank else .lineComment) rest
  | .blockComment, '*' :: '/' :: rest => skipGap .blank rest
  | .blockComment, _ :: rest => skipGap .blockComment rest
  | .blockComment, [] => none
  | _, [] => some []

/-! ## Quoted texts and names -/

/-- The character that a backslash and one letter stand for.  A letter without a
meaning stands for itself; digits other than zero and the heads of longer
escapes are refused. -/
def escaped? : Char → Option Char
  | 'b' => some '\x08'
  | 'f' => some '\x0c'
  | 'n' => some '\n'
  | 'r' => some '\r'
  | 't' => some '\t'
  | 'v' => some '\x0b'
  | '0' => some '\x00'
  | c => if c.isDigit || c = 'x' || c = 'u' then none else some c

/-- The code point that two surrogates stand for.  The bit above the lower
sixteen is set and not added, so a pair always names a character of a plane with
an odd number. -/
def oddPlanePoint (high low : Nat) : Nat :=
  (high - 0xd800) * 0x400 ||| (low - 0xdc00 + 0x10000)

/-- Reads a quoted text up to its closing quote, given the pieces that stand
before it in reverse.  A line end after a backslash is left out; any other line
end is refused. -/
def readText (quote : Char) (pieces : List Piece) :
    List Char → Option (List Piece × List Char)
  | [] => none
  | '\\' :: '\r' :: '\n' :: rest => readText quote pieces rest
  | '\\' :: 'x' :: a :: b :: rest =>
    (hexNumber? [a, b]).bind fun n =>
      readText quote (.char (Char.ofNat n) :: pieces) rest
  | '\\' :: 'u' :: a :: b :: c :: d :: rest =>
    (hexNumber? [a, b, c, d]).bind fun n =>
      readText quote (.unit n :: pieces) rest
  | '\\' :: c :: rest =>
    if isLineEnd c then
      readText quote pieces rest
    else
      (escaped? c).bind fun c => readText quote (.char c :: pieces) rest
  | c :: rest =>
    if c = quote then some (pieces.reverse, rest)
    else if c = '\\' || isLineEnd c then none
    else readText quote (.char c :: pieces) rest

/-- Reads the longest name, given the pieces that stand before it in reverse. -/
def readName (pieces : List Piece) : List Char → List Piece × List Char
  | '\\' :: 'u' :: a :: b :: c :: d :: rest =>
    match hexNumber? [a, b, c, d] with
    | some n => readName (.unit n :: pieces) rest
    | none => (pieces.reverse, '\\' :: 'u' :: a :: b :: c :: d :: rest)
  | c :: rest =>
    if (if pieces.isEmpty then Text.isNameStart c else Text.isNamePart c) then
      readName (.char c :: pieces) rest
    else
      (pieces.reverse, c :: rest)
  | [] => (pieces.reverse, [])

/-- The value of a name that stands for one. -/
def valueOfName? (pieces : List Piece) : Option Draft :=
  if pieces = word "null" || pieces = word "Infinity" ||
      pieces = word "NaN" then some .null
  else if pieces = word "true" then some (.bool true)
  else if pieces = word "false" then some (.bool false)
  else none
where
  /-- A name without escapes. -/
  word (s : String) : List Piece := s.toList.map .char

/-! ## Numbers -/

/-- The integer of a hexadecimal numeral: at most 32 bits, and without a
sign. -/
def hexNumeral? (sign : Option Char) (digits : List Char) : Option Number :=
  match sign, hexNumber? digits with
  | none, some n => if n < UInt32.size then some (.int n) else none
  | _, _ => none

/-- The value of a decimal numeral.  Without a point and an exponent it is an
integer of 64 signed bits. -/
def decimal? (numeral : Numeral) (hasPoint : Bool) : Option Number :=
  if hasPoint || numeral.exponent.isSome then
    numeral.nearest?.map .double
  else
    let size := decimalValue numeral.whole
    if numeral.negative then
      if size ≤ minSignedSize then some (.int (-size)) else none
    else
      if size < minSignedSize then some (.int size) else none

/-- Reads an exponent, if there is a complete one. -/
def readExponent (cs : List Char) : Option Exponent × List Char :=
  match cs with
  | c :: rest =>
    let (negative, rest) :=
      match rest with
      | '+' :: rest => (false, rest)
      | '-' :: rest => (true, rest)
      | rest => (false, rest)
    let digits := rest.takeWhile Char.isDigit
    if (c = 'e' || c = 'E') && !digits.isEmpty then
      (some ⟨negative, digits⟩, rest.dropWhile Char.isDigit)
    else
      (none, cs)
  | [] => (none, cs)

/-- Reads the digits before the point, if there are any.  A leading zero stands
alone. -/
def readWhole : List Char → List Char × List Char
  | '0' :: rest => (['0'], rest)
  | cs => (cs.takeWhile Char.isDigit, cs.dropWhile Char.isDigit)

/-- Reads a numeral of decimal digits.  Digits may be missing on one side of the
point. -/
def readDecimal (negative : Bool) (cs : List Char) :
    Option (Option Number × List Char) :=
  let (whole, rest) := readWhole cs
  let (hasPoint, fraction, rest) :=
    match rest with
    | '.' :: after =>
      if whole.isEmpty && (after.takeWhile Char.isDigit).isEmpty then
        (false, [], rest)
      else
        (true, after.takeWhile Char.isDigit, after.dropWhile Char.isDigit)
    | _ => (false, [], rest)
  if whole.isEmpty && !hasPoint then
    none
  else
    let (exponent, rest) := readExponent rest
    some (decimal? ⟨negative, whole, fraction, exponent⟩ hasPoint, rest)

/-- Reads a numeral behind its sign, if it has one.  A signed infinity is no
integer, and only the negative one has a value; so is a signed not-a-number. -/
def readUnsigned (sign : Option Char) : List Char → Option (Draft × List Char)
  | 'I' :: 'n' :: 'f' :: 'i' :: 'n' :: 'i' :: 't' :: 'y' :: rest =>
    some (if sign = some '+' then .number none else .null, rest)
  | 'N' :: 'a' :: 'N' :: rest =>
    some (if sign = some '+' then .number none else .null, rest)
  | '0' :: x :: d :: rest =>
    if (x = 'x' || x = 'X') && (hexValue? d).isSome then
      let digits := (d :: rest).takeWhile fun c => (hexValue? c).isSome
      some (.number (hexNumeral? sign digits),
        (d :: rest).dropWhile fun c => (hexValue? c).isSome)
    else
      (readDecimal (sign = some '-') ('0' :: x :: d :: rest)).map
        fun (n, rest) => (.number n, rest)
  | cs =>
    (readDecimal (sign = some '-') cs).map fun (n, rest) => (.number n, rest)

/-! ## Tokens -/

/-- Reads one token from a text that starts with it. -/
def readToken : List Char → Option (Token × List Char)
  | '[' :: rest => some (.openList, rest)
  | ']' :: rest => some (.closeList, rest)
  | '\x7b' :: rest => some (.openMap, rest)
  | '\x7d' :: rest => some (.closeMap, rest)
  | ':' :: rest => some (.colon, rest)
  | ',' :: rest => some (.comma, rest)
  | '+' :: rest =>
    (readUnsigned (some '+') rest).map fun (value, rest) => (.leaf value, rest)
  | '-' :: rest =>
    (readUnsigned (some '-') rest).map fun (value, rest) => (.leaf value, rest)
  | c :: rest =>
    if c = '"' || c = '\'' then
      (readText c [] rest).map fun (pieces, rest) =>
        (.text (textOfPieces oddPlanePoint pieces), rest)
    else if c.isDigit || c = '.' then
      (readUnsigned none (c :: rest)).map fun (value, rest) =>
        (.leaf value, rest)
    else
      match readName [] (c :: rest) with
      | ([], _) => none
      | (pieces, rest) =>
        some
          (.name (textOfPieces oddPlanePoint pieces) (valueOfName? pieces),
            rest)
  | [] => none

/-- Reads at most `fuel` tokens, which have to exhaust the text. -/
def readTokens : (fuel : Nat) → List Char → Option (List Token)
  | fuel, cs => do
    match fuel, ← skipGap .blank cs with
    | _, [] => return []
    | 0, _ :: _ => none
    | fuel + 1, c :: cs =>
      let (token, rest) ← readToken (c :: cs)
      let tokens ← readTokens fuel rest
      return token :: tokens

end Document.Relaxed

/-- The tree of a relaxed document. -/
def Tree.ofRelaxed? (text : String) : Option Tree := do
  let tokens ← Document.Relaxed.readTokens text.toList.length text.toList
  let draft ← Draft.ofTokens? true tokens
  draft.toTree?

end Flowchart
