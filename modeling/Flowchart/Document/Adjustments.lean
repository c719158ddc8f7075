import Flowchart.Document.Draft

/-!
# Adjustments

A document of adjustments changes some of several named values and leaves the
others as they are.  It is a map from names to values, or the list of all values
in the order of their declaration; null leaves a value as it is.  Unknown names
are passed over whatever they hold, but no known name may be repeated.
-/

namespace Flowchart

/-- The values that are to be changed, by name. -/
abbrev Adjustments := List (String × Draft)

namespace Draft

/-- The draft is null. -/
def isNull : Draft → Bool
  | .null => true
  | _ => false

/-- The value under a name, which must not be repeated.  The outer option is
empty if it is. -/
def unique? (pairs : List (String × Draft)) (name : String) :
    Option (List (String × Draft)) :=
  match pairs.filter fun pair => pair.1 == name with
  | [] => some []
  | [pair] => some (if pair.2.isNull then [] else [pair])
  | _ => none

/-- The adjustments of the values with the given names. -/
def adjustments? (names : List String) : Draft → Option Adjustments
  | .map pairs => do
    let pairs ← pairs.mapM fun (key, value) => key.map fun key => (key, value)
    let found ← names.mapM (unique? pairs)
    return found.flatten
  | .list items =>
    if items.length = names.length then
      some ((names.zip items).filter fun entry => !entry.2.isNull)
    else
      none
  | _ => none

/-- Reads a truth value. -/
def bool? : Draft → Option Bool
  | .bool b => some b
  | _ => none

/-- Reads a text. -/
def text? : Draft → Option String
  | .text s => s
  | _ => none

/-- Reads a number in single precision. -/
def single? : Draft → Option Float32
  | .number n => n.map Number.toSingle
  | _ => none

/-- Reads a whole number that is not negative. -/
def natural? : Draft → Option Nat
  | .number (some (.int n)) => if 0 ≤ n then some n.toNat else none
  | _ => none

/-- Reads one of the words of a table.  A word may also be written as the only
key of a map, with null as its value. -/
def oneOf? (words : List (String × α)) : Draft → Option α
  | .text (some word) => words.lookup word
  | .map [(some word, .null)] => words.lookup word
  | _ => none

end Draft

namespace Adjustments

/-- The new value under a name, or the old one if nothing is said of it. -/
def apply (adjustments : Adjustments) (name : String)
    (read : Draft → Option α) (old : α) : Option α :=
  match adjustments.lookup name with
  | none => some old
  | some draft => read draft

end Adjustments

end Flowchart
