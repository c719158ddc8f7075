import Flowchart.Decimal.Format
import Flowchart.Document.Basic
import Flowchart.Text.Quoted

/-!
# The text of a document tree

A tree is written on one line without spaces, or over several lines with an
indentation of two spaces.  The fields of a map are written in the order in
which the tree holds them.
-/

namespace Flowchart

/-- The text of a number.  A number that is not finite has no text of its
own. -/
def Number.render : Number → String
  | .int n => toString n
  | .double x => (Decimal.doubleText? x).getD "null"
  | .single x => (Decimal.singleText? x).getD "null"

namespace Tree

mutual

/-- The text on one line. -/
def render : Tree → String
  | .null => "null"
  | .bool b => if b then "true" else "false"
  | .number n => n.render
  | .text s => Text.quote s
  | .list items => "[" ++ ",".intercalate (renderList items) ++ "]"
  | .map fields => "\x7b" ++ ",".intercalate (renderFields fields) ++ "\x7d"
termination_by structural t => t

/-- The texts of the items of a list. -/
def renderList : List Tree → List String
  | [] => []
  | item :: items => item.render :: renderList items
termination_by structural items => items

/-- The texts of the fields of a map. -/
def renderFields : List (String × Tree) → List String
  | [] => []
  | (key, value) :: fields =>
    (Text.quote key ++ ":" ++ value.render) :: renderFields fields
termination_by structural fields => fields

end

/-- The start of a line at a nesting depth. -/
def newline (depth : Nat) : String :=
  String.ofList ('\n' :: List.replicate (2 * depth) ' ')

/-- Parts between two brackets, each part on a line of its own. -/
def block (opening closing : String) (depth : Nat) (parts : List String) :
    String :=
  if parts.isEmpty then
    opening ++ closing
  else
    opening ++ newline (depth + 1) ++
      ("," ++ newline (depth + 1)).intercalate parts ++
      newline depth ++ closing

mutual

/-- The text over several lines, the first of them at the given depth. -/
def renderIndented (depth : Nat) : Tree → String
  | .null => "null"
  | .bool b => if b then "true" else "false"
  | .number n => n.render
  | .text s => Text.quote s
  | .list items => block "[" "]" depth (indentedList (depth + 1) items)
  | .map fields => block "\x7b" "\x7d" depth (indentedFields (depth + 1) fields)
termination_by structural t => t

/-- The texts of the items of a list. -/
def indentedList (depth : Nat) : List Tree → List String
  | [] => []
  | item :: items => item.renderIndented depth :: indentedList depth items
termination_by structural items => items

/-- The texts of the fields of a map. -/
def indentedFields (depth : Nat) : List (String × Tree) → List String
  | [] => []
  | (key, value) :: fields =>
    (Text.quote key ++ ": " ++ value.renderIndented depth) ::
      indentedFields depth fields
termination_by structural fields => fields

end

end Tree

end Flowchart
