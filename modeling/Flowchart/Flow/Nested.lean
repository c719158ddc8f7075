import Flowchart.Error
import Flowchart.Flow.Basic
import Flowchart.Text.Blank

/-!
# Nested flows

A path of ids leads from a flow to a flow nested in it.  Each id names the first
step of the current flow, in the order of the document and through branches but
not through nested flows, that has this id and stands for a workflow.
-/

namespace Flowchart

/-- A nested flow with the label of the path that leads to it. -/
structure NestedFlow where
  label : String
  flow : Flow
  deriving Repr

namespace Entry

mutual

/-- The first step in an entry that has the id and stands for a workflow. -/
def findWorkflowStep? (id : String) : Entry → Option (Step Entry)
  | .step s | .foreach s _ | .loop s _ _ =>
    if s.id = id ∧ s.isWorkflow then some s else none
  | .parallel branches => findInBranches? id branches
  | .conditional branches _ => findInBranches? id branches
  | .sleep .. | .sleepUntil .. | .waitForEvent .. => none
termination_by structural e => e

/-- The first such step in several branches. -/
def findInBranches? (id : String) : List (List Entry) → Option (Step Entry)
  | [] => none
  | branch :: branches =>
    (findInFlow? id branch).or (findInBranches? id branches)
termination_by structural branches => branches

/-- The first such step in a flow. -/
def findInFlow? (id : String) : List Entry → Option (Step Entry)
  | [] => none
  | e :: flow => (e.findWorkflowStep? id).or (findInFlow? id flow)
termination_by structural flow => flow

end

end Entry

namespace Flow

/-- The ids of a path: its trimmed parts between slashes, without the empty
ones. -/
def pathIds (path : String) : List String :=
  Text.parts "/" path

/-- The flow nested in the step with an id. -/
def enter? (flow : Flow) (id : String) : Option Flow :=
  (Entry.findInFlow? id flow).bind Step.nested?

/-- What stands between the ids in the label of a nested flow. -/
def labelSeparator : String := " › "

/-- The nested flow that a path leads to. -/
def findNested (flow : Flow) (path : String) : Except Error NestedFlow :=
  let ids := pathIds path
  match if ids.isEmpty then none else ids.foldlM enter? flow with
  | some nested => .ok ⟨labelSeparator.intercalate ids, nested⟩
  | none => .error (.nestedFlowNotFound path)

end Flow

end Flowchart
