import Flowchart.Document.Draft
import Flowchart.Document.Numeral
import Flowchart.Document.Surrogate

/-!
# Strict documents

The strict notation of documents: quoted keys, no comments, no comma before a
closing bracket.  `Draft.ofStrict?` checks the notation only.  `Tree.ofStrict?`
also asks that every leaf has a value and that no leaf stands in more than 127
maps and lists.
-/

namespace Flowchart

namespace Document.Strict

/-! ## Blanks and quoted texts -/

/-- The blanks between tokens. -/
def isSpace (c : Char) : Bool :=
  c = ' ' || c = '\n' || c = '\t' || c = '\r'

/-- The character that a backslash and one letter stand for. -/
def escaped? : Char → Option Char
  | '"' => some '"'
  | '\\' => some '\\'
  | '/' => some '/'
  | 'b' => some '\x08'
  | 'f' => some '\x0c'
  | 'n' => some '\n'
  | 'r' => some '\r'
  | 't' => some '\t'
  | _ => none

/-- Reads a quoted text up to its closing quote, given the pieces that stand
before it in reverse.  Control characters have to be escaped. -/
def readText (pieces : List Piece) : List Char → Option (List Piece × List Char)
  | [] => none
  | '"' :: rest => some (pieces.reverse, rest)
  | '\\' :: 'u' :: a :: b :: c :: d :: rest =>
    (hexNumber? [a, b, c, d]).bind fun n => readText (.unit n :: pieces) rest
  | '\\' :: c :: rest =>
    (escaped? c).bind fun c => readText (.char c :: pieces) rest
  | c :: rest =>
    if c.toNat < 0x20 then none else readText (.char c :: pieces) rest

/-! ## Numbers -/

/-- Reads an exponent, if there is one. -/
def readExponent : List Char → Option (Option Exponent × List Char)
  | c :: rest =>
    if c = 'e' || c = 'E' then
      let (negative, rest) :=
        match rest with
        | '+' :: rest => (false, rest)
        | '-' :: rest => (true, rest)
        | rest => (false, rest)
      let digits := rest.takeWhile Char.isDigit
      if digits.isEmpty then none
      else some (some ⟨negative, digits⟩, rest.dropWhile Char.isDigit)
    else
      some (none, c :: rest)
  | [] => some (none, [])

/-- Reads a fraction, if there is one. -/
def readFraction : List Char → Option (List Char × List Char)
  | '.' :: rest =>
    let digits := rest.takeWhile Char.isDigit
    if digits.isEmpty then none else some (digits, rest.dropWhile Char.isDigit)
  | rest => some ([], rest)

/-- Reads the digits before the point.  A leading zero stands alone. -/
def readWhole : List Char → Option (List Char × List Char)
  | '0' :: rest => some (['0'], rest)
  | rest =>
    let digits := rest.takeWhile Char.isDigit
    if digits.isEmpty then none else some (digits, rest.dropWhile Char.isDigit)

/-- Reads a numeral. -/
def readNumeral (cs : List Char) : Option (Numeral × List Char) := do
  let (negative, cs) :=
    match cs with
    | '-' :: cs => (true, cs)
    | cs => (false, cs)
  let (whole, cs) ← readWhole cs
  let (fraction, cs) ← readFraction cs
  let (exponent, cs) ← readExponent cs
  return (⟨negative, whole, fraction, exponent⟩, cs)

/-! ## Tokens -/

/-- Reads one token from a text that starts with it. -/
def readToken : List Char → Option (Token × List Char)
  | '[' :: rest => some (.openList, rest)
  | ']' :: rest => some (.closeList, rest)
  | '\x7b' :: rest => some (.openMap, rest)
  | '\x7d' :: rest => some (.closeMap, rest)
  | ':' :: rest => some (.colon, rest)
  | ',' :: rest => some (.comma, rest)
  | '"' :: rest =>
    (readText [] rest).map fun (pieces, rest) =>
      (.text (textOfPieces pairPoint pieces), rest)
  | 'n' :: 'u' :: 'l' :: 'l' :: rest => some (.leaf .null, rest)
  | 't' :: 'r' :: 'u' :: 'e' :: rest => some (.leaf (.bool true), rest)
  | 'f' :: 'a' :: 'l' :: 's' :: 'e' :: rest => some (.leaf (.bool false), rest)
  | cs =>
    (readNumeral cs).map fun (numeral, rest) =>
      (.leaf (.number numeral.number?), rest)

/-- Reads at most `fuel` tokens, which have to exhaust the text. -/
def readTokens : (fuel : Nat) → List Char → Option (List Token)
  | fuel, cs =>
    match fuel, cs.dropWhile isSpace with
    | _, [] => some []
    | 0, _ :: _ => none
    | fuel + 1, c :: cs => do
      let (token, rest) ← readToken (c :: cs)
      let tokens ← readTokens fuel rest
      return token :: tokens

end Document.Strict

/-- The draft of a strict document. -/
def Draft.ofStrict? (text : String) : Option Draft :=
  (Document.Strict.readTokens text.toList.length text.toList).bind
    (Draft.ofTokens? false)

/-- The largest number of maps and lists around a leaf of a strict document. -/
def Tree.maxStrictHeight : Nat := 127

/-- The tree of a strict document. -/
def Tree.ofStrict? (text : String) : Option Tree :=
  (Draft.ofStrict? text).bind fun draft =>
    if draft.height ≤ Tree.maxStrictHeight then draft.toTree? else none

end Flowchart
