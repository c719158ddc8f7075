import Flowchart.Document.Relaxed
import Flowchart.Document.Strict
import Flowchart.Error
import Flowchart.Text.Blank

/-!
# Reading documents

A text without anything but blanks is the null document.  Every other text is
read in the strict notation and, if that fails for whatever reason, in the
relaxed one.
-/

namespace Flowchart

/-- The document that a text holds. -/
def Tree.ofText? (text : String) : Option Tree :=
  let trimmed := Text.trim text
  if trimmed.isEmpty then
    some .null
  else
    (Tree.ofStrict? trimmed).or (Tree.ofRelaxed? trimmed)

/-- The document that a text holds, or an error. -/
def Tree.ofText (text : String) : Except ParseError Tree :=
  match Tree.ofText? text with
  | some tree => .ok tree
  | none => .error .malformed

end Flowchart
