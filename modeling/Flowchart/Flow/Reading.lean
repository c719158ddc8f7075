import Flowchart.Document.Reading
import Flowchart.Flow.Decode

/-!
# Step flows in documents

A document is a flow itself, or a map that holds a flow under one of two keys,
or null, which is the empty flow.
-/

namespace Flowchart

namespace Flow

/-- The keys that a document may hold its flow under, the first one first. -/
def documentKeys : List String := ["serializedStepGraph", "stepGraph"]

/-- The value under a key, if it is a list or null. -/
def listOrNull? (fields : List (String × Tree)) (key : String) : Option Tree :=
  match fields.lookup key with
  | some (.list items) => some (.list items)
  | some .null => some .null
  | _ => none

/-- Reads a flow, and the empty flow from null. -/
def ofListOrNull : Tree → Except ParseError Flow
  | .null => .ok []
  | tree => (Flow.decode tree).mapError .decoding

/-- The flow of a document. -/
def ofDocument : Tree → Except ParseError Flow
  | .null => .ok []
  | .list items => ofListOrNull (.list items)
  | .map fields =>
    match documentKeys.findSome? (listOrNull? fields) with
    | some tree => ofListOrNull tree
    | none => .error .noFlowInside
  | tree => .error (.notAFlow tree)

/-- The flow that a text holds. -/
def ofText (text : String) : Except Error Flow :=
  (Tree.ofText text >>= ofDocument).mapError .parse

end Flow

end Flowchart
