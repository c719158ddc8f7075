import Flowchart.Flow.Basic

/-!
# Diagrams

A diagram is a graph of nodes and edges that is not placed yet.  A node carries
what is drawn in it; an edge remembers the declared ids of the steps that it
leaves and enters, which survive when a node had to be renamed.
-/

namespace Flowchart

/-! ## Nodes and edges -/

/-- The kind of a node. -/
inductive NodeKind where
  | standard
  | nested
  | condition
  | loopResult
  deriving DecidableEq, Repr

/-- The two ways out of a loop condition. -/
inductive LoopOutcome where
  | again
  | finished
  deriving DecidableEq, Repr

/-- What is particular to the construct that a node stands for. -/
inductive Detail where
  | sleep (duration : UInt64)
  | sleepUntil (date : String)
  | waitForEvent (event : String)
  | map (mapConfig : String)
  | foreach (concurrency : Option UInt32) (mapConfig : Option String)
  deriving DecidableEq, Repr

/-- What is drawn in a node. -/
structure Payload where
  label : String
  description : Option String
  /-- No edge enters the node. -/
  withoutTopHandle : Bool
  /-- No edge leaves the node. -/
  withoutBottomHandle : Bool
  /-- The flow that can be looked into. -/
  stepGraph : Option Flow
  conditions : List Condition
  previousStepId : Option String
  nextStepId : Option String
  /-- The node needs the height of a large node. -/
  isLarge : Bool
  loopOutcome : Option LoopOutcome
  detail : Option Detail
  deriving Repr

/-- A node. -/
structure Node where
  id : String
  kind : NodeKind
  payload : Payload
  deriving Repr

/-- The arrow head of an edge. -/
inductive MarkerEnd where
  | arrowClosed
  | arrow
  deriving DecidableEq, Repr

/-- How edges are drawn. -/
structure EdgeStyle where
  animated : Bool
  stroke : String
  strokeWidth : Float32
  markerEnd : Option MarkerEnd
  deriving Repr

/-- An edge. -/
structure Edge where
  id : String
  source : String
  target : String
  /-- The declared id of the step that the edge leaves. -/
  previousStepId : String
  /-- The declared id of the step that the edge enters. -/
  nextStepId : String
  style : EdgeStyle
  deriving Repr

/-- A graph of nodes and edges. -/
structure Diagram where
  nodes : List Node
  edges : List Edge
  deriving Repr

/-! ## Open ends -/

/-- The end of an edge that is still open: a node and the declared id of the
step that it stands for. -/
structure Tail where
  nodeId : String
  stepId : String
  deriving DecidableEq, Repr

/-- The open ends behind a construct, in the order in which they are joined to
what follows. -/
abbrev Frontier := List Tail

namespace Frontier

/-- The step that the last open end stands for. -/
def lastStepId? (frontier : Frontier) : Option String :=
  frontier.getLast?.map Tail.stepId

end Frontier

/-! ## Payloads -/

namespace EdgeStyle

/-- The style of edges unless another is asked for. -/
def standard : EdgeStyle :=
  ⟨true, "#8e8e8e", 1, some .arrowClosed⟩

end EdgeStyle

namespace Payload

/-- A payload with nothing but a label. -/
def labelled (label : String) : Payload where
  label := label
  description := none
  withoutTopHandle := false
  withoutBottomHandle := false
  stepGraph := none
  conditions := []
  previousStepId := none
  nextStepId := none
  isLarge := false
  loopOutcome := none
  detail := none

/-- The same payload with a description. -/
def withDescription (payload : Payload) (description : Option String) :
    Payload :=
  { payload with description }

/-- The payload of a step. -/
def ofStep (step : Step Entry) : Payload :=
  { labelled step.id with
    description := step.description
    stepGraph := step.nested?
    detail := step.mapConfig.map .map }

/-- The payload of a condition.  Several conditions, or a raw expression, need a
large node. -/
def ofConditions (label : String) (conditions : List Condition)
    (previousStepId nextStepId : Option String) : Payload :=
  { labelled label with
    conditions
    previousStepId
    nextStepId
    isLarge := conditions.length > 1 ||
      conditions.any fun c => c.rawExpression.isSome }

end Payload

namespace LoopOutcome

/-- The word for an outcome. -/
def word : LoopOutcome → String
  | .again => "continue"
  | .finished => "finished"

/-- The payload of the node of an outcome. -/
def payload (outcome : LoopOutcome) (stepId : String) : Payload :=
  { Payload.labelled outcome.word with
    loopOutcome := some outcome
    previousStepId := some stepId }

end LoopOutcome

/-- The node stands for a workflow of its own. -/
def Node.isNested (node : Node) : Bool :=
  node.kind == .nested

/-! ## Looking into diagrams -/

namespace Diagram

/-- The diagram without nodes. -/
def empty : Diagram := ⟨[], []⟩

/-- The diagram has no nodes. -/
def isEmpty (diagram : Diagram) : Bool :=
  diagram.nodes.isEmpty

/-- The node with an id. -/
def node? (diagram : Diagram) (id : String) : Option Node :=
  diagram.nodes.find? fun node => node.id == id

/-- The edge between two nodes. -/
def edge? (diagram : Diagram) (source target : String) : Option Edge :=
  diagram.edges.find? fun edge => edge.source == source && edge.target == target

/-- The edges that leave a node. -/
def edgesFrom (diagram : Diagram) (id : String) : List Edge :=
  diagram.edges.filter fun edge => edge.source == id

/-- The edges that enter a node. -/
def edgesInto (diagram : Diagram) (id : String) : List Edge :=
  diagram.edges.filter fun edge => edge.target == id

end Diagram

end Flowchart
