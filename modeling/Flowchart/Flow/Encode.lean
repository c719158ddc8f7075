import Flowchart.Flow.Basic

/-!
# The written form of step flows

Every entry is a map whose field `type` names its kind; absent options are left
out.
-/

namespace Flowchart

/-- The written form of the options. -/
def ForeachOptions.toTree (options : ForeachOptions) : Tree :=
  .map [("concurrency", .int options.concurrency.toNat)]

/-- The written form of an exit condition. -/
def ExitCondition.toTree (exit : ExitCondition) : Tree :=
  .map [("id", .text exit.id), ("expr", .text exit.expr)]

/-- The field that names the type of an entry. -/
def EntryType.typeField (type : EntryType) : String × Tree :=
  ("type", .text type.word)

namespace Entry

open EntryType (typeField)

mutual

/-- The written form of an entry. -/
def toTree : Entry → Tree
  | .step s => .map (typeField .step :: stepFields s)
  | .foreach s options =>
    .map ([typeField .foreach, ("step", .map (stepFields s))] ++
      Tree.optionalField "opts" (options.map ForeachOptions.toTree))
  | .sleep id duration =>
    .map [typeField .sleep, ("id", .text id), ("duration", .int duration.toNat)]
  | .sleepUntil id date =>
    .map [typeField .sleepUntil, ("id", .text id), ("date", .text date)]
  | .waitForEvent id event description =>
    .map ([typeField .waitForEvent, ("id", .text id), ("event", .text event)] ++
      Tree.optionalField "description" (description.map .text))
  | .loop s exit kind =>
    .map [typeField .loop, ("step", .map (stepFields s)),
      ("exitCondition", exit.toTree), ("loopKind", .text kind.word)]
  | .parallel branches =>
    .map [typeField .parallel, ("branches", .list (branchTrees branches))]
  | .conditional branches conditions =>
    .map [typeField .conditional, ("branches", .list (branchTrees branches)),
      ("branchConditions", .list (conditions.map Condition.toTree))]
termination_by structural e => e

/-- The fields of a step. -/
def stepFields : Step Entry → List (String × Tree)
  | ⟨id, description, isWorkflow, nestedFlow, mapConfig⟩ =>
    [("id", .text id)] ++
    Tree.optionalField "description" (description.map .text) ++
    [("isWorkflow", .bool isWorkflow)] ++
    nestedFields nestedFlow ++
    Tree.optionalField "mapConfig" (mapConfig.map .text)
termination_by structural s => s

/-- The field of a nested flow. -/
def nestedFields : Option (List Entry) → List (String × Tree)
  | none => []
  | some flow => [("nestedFlow", .list (flowTrees flow))]
termination_by structural flow => flow

/-- The written forms of the entries of a flow. -/
def flowTrees : List Entry → List Tree
  | [] => []
  | e :: flow => e.toTree :: flowTrees flow
termination_by structural flow => flow

/-- The written forms of the branches of an entry. -/
def branchTrees : List (List Entry) → List Tree
  | [] => []
  | branch :: branches => .list (flowTrees branch) :: branchTrees branches
termination_by structural branches => branches

end

end Entry

/-- The written form of a flow. -/
def Flow.toTree (flow : Flow) : Tree :=
  .list (Entry.flowTrees flow)

end Flowchart
