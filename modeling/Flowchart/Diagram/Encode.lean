import Flowchart.Diagram.Basic
import Flowchart.Flow.Encode

/-!
# The written form of diagrams

The fields of a node's payload that have no value are left out.
-/

namespace Flowchart

/-- The word for a kind of node. -/
def NodeKind.word : NodeKind → String
  | standard => "default-node"
  | nested => "nested-node"
  | condition => "condition-node"
  | loopResult => "loop-result-node"

/-- The words of the arrow heads. -/
def MarkerEnd.words : List (String × MarkerEnd) :=
  [("arrowClosed", arrowClosed), ("arrow", arrow)]

/-- The word for an arrow head. -/
def MarkerEnd.word : MarkerEnd → String
  | arrowClosed => "arrowClosed"
  | arrow => "arrow"

/-- A number of single precision. -/
def Tree.single (x : Float32) : Tree :=
  .number (.single x)

/-- A text, or null in its absence. -/
def Tree.textOrNull (text : Option String) : Tree :=
  Tree.ofOption (text.map .text)

/-- The written form of what is particular to a construct. -/
def Detail.toTree : Detail → Tree
  | sleep duration =>
    .map [("kind", .text "sleep"), ("duration", .int duration.toNat)]
  | sleepUntil date => .map [("kind", .text "sleepUntil"), ("date", .text date)]
  | waitForEvent event =>
    .map [("kind", .text "waitForEvent"), ("event", .text event)]
  | map mapConfig =>
    .map [("kind", .text "map"), ("mapConfig", .text mapConfig)]
  | foreach concurrency mapConfig =>
    .map [("kind", .text "foreach"),
      ("concurrency", Tree.ofOption (concurrency.map fun n => .int n.toNat)),
      ("mapConfig", Tree.textOrNull mapConfig)]

/-- The written form of a payload. -/
def Payload.toTree (payload : Payload) : Tree :=
  .map <|
    [("label", .text payload.label)] ++
    Tree.optionalField "description" (payload.description.map .text) ++
    [("withoutTopHandle", .bool payload.withoutTopHandle),
      ("withoutBottomHandle", .bool payload.withoutBottomHandle)] ++
    Tree.optionalField "stepGraph" (payload.stepGraph.map Flow.toTree) ++
    (if payload.conditions.isEmpty then []
      else [("conditions", .list (payload.conditions.map Condition.toTree))]) ++
    Tree.optionalField "previousStepId" (payload.previousStepId.map .text) ++
    Tree.optionalField "nextStepId" (payload.nextStepId.map .text) ++
    [("isLarge", .bool payload.isLarge)] ++
    Tree.optionalField "loopResult"
      (payload.loopOutcome.map fun outcome => .text outcome.word) ++
    Tree.optionalField "detail" (payload.detail.map Detail.toTree)

/-- The written form of a style. -/
def EdgeStyle.toTree (style : EdgeStyle) : Tree :=
  .map [("animated", .bool style.animated), ("stroke", .text style.stroke),
    ("strokeWidth", .single style.strokeWidth),
    ("markerEnd", Tree.textOrNull (style.markerEnd.map MarkerEnd.word))]

/-- The written form of an edge. -/
def Edge.toTree (edge : Edge) : Tree :=
  .map [("id", .text edge.id), ("sourceNodeId", .text edge.source),
    ("targetNodeId", .text edge.target),
    ("previousStepId", .text edge.previousStepId),
    ("nextStepId", .text edge.nextStepId), ("styleDefaults", edge.style.toTree)]

/-- The written form of a pair of coordinates. -/
def Tree.coordinates (x y : Float32) : Tree :=
  .map [("x", .single x), ("y", .single y)]

/-- The written form of a node that is not placed: it stands at the origin. -/
def Node.toTree (node : Node) : Tree :=
  .map [("id", .text node.id), ("type", .text node.kind.word),
    ("position", Tree.coordinates 0 0), ("data", node.payload.toTree)]

/-- The written form of a diagram. -/
def Diagram.toTree (diagram : Diagram) : Tree :=
  .map [("nodes", .list (diagram.nodes.map Node.toTree)),
    ("edges", .list (diagram.edges.map Edge.toTree))]

end Flowchart
