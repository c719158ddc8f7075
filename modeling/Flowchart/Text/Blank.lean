/-!
# Blank characters

The characters with the Unicode property `White_Space`, and the trimming and
splitting of text that goes by them.  A zero-width space and a byte order mark
do not have the property, so trimming keeps them.
-/

namespace Flowchart.Text

/-- The characters with the property `White_Space`. -/
def isBlank (c : Char) : Bool :=
  ('\t' ≤ c && c ≤ '\r') || c = ' ' || c = '\u0085' || c = '\u00a0' ||
    c = '\u1680' || ('\u2000' ≤ c && c ≤ '\u200a') || c = '\u2028' ||
    c = '\u2029' || c = '\u202f' || c = '\u205f' || c = '\u3000'

/-- Removes the blanks in front of the first other character. -/
def trimStart (cs : List Char) : List Char :=
  cs.dropWhile isBlank

/-- Removes the blanks behind the last other character. -/
def trimEnd (cs : List Char) : List Char :=
  (cs.reverse.dropWhile isBlank).reverse

/-- The text without the blanks at its two ends. -/
def trim (text : String) : String :=
  String.ofList (trimEnd (trimStart text.toList))

/-- Puts a character in front of the first piece. -/
def consHead (c : Char) : List (List Char) → List (List Char)
  | [] => [[c]]
  | piece :: pieces => (c :: piece) :: pieces

/-- Cuts a text at every occurrence of a non-empty separator, read from the left
without overlap.  The number counts the characters of the current occurrence
that are still to be passed over. -/
def splitOn (separator : List Char) : Nat → List Char → List (List Char)
  | _, [] => [[]]
  | skip + 1, _ :: cs => splitOn separator skip cs
  | 0, c :: cs =>
    if separator.isPrefixOf (c :: cs) then
      [] :: splitOn separator (separator.length - 1) cs
    else
      consHead c (splitOn separator 0 cs)

/-- The pieces between the occurrences of `separator`, trimmed, without the
empty ones. -/
def parts (separator text : String) : List String :=
  ((splitOn separator.toList 0 text.toList).map
    fun piece => trim (String.ofList piece)).filter fun piece => !piece.isEmpty

end Flowchart.Text
