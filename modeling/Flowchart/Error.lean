import Flowchart.Document.Record

/-!
# Errors

Everything that can go wrong between the text of a document and its diagram, and
the wording of each error.
-/

namespace Flowchart

/-- Why a text is no definition of a workflow. -/
inductive ParseError where
  /-- The text is no document in either notation. -/
  | malformed
  /-- The document has a form that holds no flow at all. -/
  | noFlowInside
  /-- The document is neither a flow nor something that holds one. -/
  | notAFlow (found : Tree)
  /-- The document is not a map. -/
  | notAWorkflow (found : Tree)
  /-- A part of the document cannot be read. -/
  | decoding (error : DecodeError)
  deriving Repr

/-- Why there is no diagram. -/
inductive Error where
  | parse (error : ParseError)
  /-- A conditional entry whose branches and conditions differ in number. -/
  | conditionMismatch (rank branches conditions : Nat)
  /-- A subscriber key that waits for a step which never comes. -/
  | unknownSource (key stepId : String)
  /-- A path that leads to no nested flow. -/
  | nestedFlowNotFound (path : String)
  deriving Repr

/-- The form of a tree, in words. -/
def Tree.form : Tree → String
  | .null => "null"
  | .bool _ => "a boolean"
  | .number _ => "a number"
  | .text _ => "a string"
  | .list _ => "an array"
  | .map _ => "an object"

/-- The wording of a fault in a tree. -/
def DecodeError.message : DecodeError → String
  | .missingField name => "missing field \x60" ++ name ++ "\x60"
  | .unknownWord word => "unknown variant \x60" ++ word ++ "\x60"
  | .mismatch => "a value of another form is expected"

/-- The wording of a fault in a text. -/
def ParseError.message : ParseError → String
  | .malformed => "the text is not well-formed"
  | .noFlowInside =>
    "expected a step-flow array or a document with " ++
      "\x60serializedStepGraph\x60"
  | .notAFlow found => "expected a step-flow array, found " ++ found.form
  | .notAWorkflow found =>
    "expected a legacy workflow object, found " ++ found.form
  | .decoding error => error.message

/-- The wording of an error. -/
def Error.message : Error → String
  | .parse error => "Failed to parse workflow definition: " ++ error.message
  | .conditionMismatch rank branches conditions =>
    "Conditional at rank " ++ toString rank ++ " declares " ++
      toString branches ++ " branches but " ++ toString conditions ++
      " branch conditions"
  | .unknownSource key stepId =>
    "Subscriber graph '" ++ key ++ "' hangs off step '" ++ stepId ++
      "', which is never emitted"
  | .nestedFlowNotFound path => "No nested workflow found at '" ++ path ++ "'"

end Flowchart
