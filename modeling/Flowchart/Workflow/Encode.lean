import Flowchart.Workflow.Basic

/-!
# The written form of chained workflows

The heads of a graph stand under the key `initial`, among the keys of the
followers.
-/

namespace Flowchart

/-- The written form of a step of a chain. -/
def ChainStep.toTree (step : ChainStep) : Tree :=
  .map [
    ("step", .map ([("id", .text step.id)] ++
      Tree.optionalField "description" (step.description.map .text))),
    ("config", .map (
      Tree.optionalField "when" step.guard ++
      Tree.optionalField "loopType"
        (step.loopKind.map fun kind => .text kind.word) ++
      Tree.optionalField "loopLabel" (step.loopLabel.map .text)))]

/-- The key of the heads of a graph. -/
def ChainGraph.headsKey : String := "initial"

/-- The written form of a graph. -/
def ChainGraph.toTree (graph : ChainGraph) : Tree :=
  .map ((headsKey, .list (graph.heads.map ChainStep.toTree)) ::
    graph.followers.map fun (id, steps) =>
      (id, .list (steps.map ChainStep.toTree)))

/-- The written form of a workflow. -/
def Workflow.toTree (workflow : Workflow) : Tree :=
  .map [
    ("stepGraph", workflow.main.toTree),
    ("stepSubscriberGraph",
      .map (workflow.subscribers.map fun (key, graph) => (key, graph.toTree)))]

end Flowchart
