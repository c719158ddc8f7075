import Flowchart.Condition.Group
import Flowchart.Diagram.Builder
import Flowchart.Error
import Flowchart.Text.Blank
import Flowchart.Workflow.Basic

/-!
# Diagrams of chained workflows

The chains of the main graph are drawn first.  A subscriber graph is drawn as
soon as all steps that its key names are drawn, and hangs off their most recent
nodes; a step may be drawn by another subscriber graph, so the graphs that still
wait are gone through again and again until nothing changes.

A step with a guard stands behind a condition node.  A step that is run again
becomes a loop condition with two ways out: one through a node that runs the
step once more and ends there, and one from which the chain goes on.
-/

namespace Flowchart

/-! ## Progress -/

/-- Where the most recent occurrence of a step left its chain. -/
structure Landing where
  nodeId : String
  rank : Nat
  deriving DecidableEq, Repr

/-- A diagram under construction with the steps that are already drawn, the most
recent first. -/
structure Progress where
  builder : Builder
  landings : List (String × Landing)
  deriving Repr

/-! ## Steps -/

namespace Builder

/-- Draws the node of a step. -/
def pushStep (b : Builder) (step : ChainStep) (rank : Nat) : Tail × Builder :=
  let (id, b) := b.claim step.id rank
  (⟨id, step.id⟩,
    b.push id .standard
      ((Payload.labelled step.id).withDescription step.description))

/-- Draws the condition node of a step behind the open ends. -/
def pushCondition (b : Builder) (step : ChainStep) (rank : Nat) (role : Role)
    (label : String) (conditions : List Condition) (incoming : Frontier) :
    String × Builder :=
  let (id, b) := b.claimRole step.id rank role
  let b := b.push id .condition
    (.ofConditions label conditions (Frontier.lastStepId? incoming)
      (some step.id))
  (id, b.connectAll incoming [⟨id, step.id⟩])

/-- Draws the node of an outcome of a loop condition. -/
def pushOutcome (b : Builder) (step : ChainStep) (rank : Nat)
    (outcome : LoopOutcome) (condition : Tail) : Tail × Builder :=
  let role : Role :=
    match outcome with
    | .again => .again
    | .finished => .finished
  let (id, b) := b.claimRole step.id rank role
  let b := b.push id .loopResult (outcome.payload step.id)
  (⟨id, step.id⟩, b.connect condition ⟨id, step.id⟩)

/-- Draws a step without a guard or behind its guard. -/
def drawPlain (b : Builder) (step : ChainStep) (rank : Nat)
    (incoming : Frontier) : Tail × Builder :=
  match step.guard with
  | none =>
    let (tail, b) := b.pushStep step rank
    (tail, b.connectAll incoming [tail])
  | some group =>
    let (id, b) := b.pushCondition step rank .guard ConditionKind.whenKind.word
      (Condition.ofGroup .whenKind group) incoming
    let (tail, b) := b.pushStep step rank
    (tail, b.connect ⟨id, (Frontier.lastStepId? incoming).getD id⟩ tail)

/-- Draws a step that is run again. -/
def drawLoop (b : Builder) (step : ChainStep) (kind : ConditionKind)
    (rank : Nat) (incoming : Frontier) : Tail × Builder :=
  let conditions := (step.guard.map (Condition.ofGroup kind)).getD []
  let (id, b) := b.pushCondition step rank .loop
    (step.loopLabel.getD kind.word) conditions incoming
  let (again, b) := b.pushOutcome step rank .again ⟨id, step.id⟩
  let (rerun, b) := b.pushStep step rank
  let b := b.connect again rerun
  b.pushOutcome step rank .finished ⟨id, step.id⟩

end Builder

/-! ## Chains and graphs -/

namespace Progress

/-- Draws a step of a chain and yields the end that the chain goes on from. -/
def drawStep (p : Progress) (step : ChainStep) (rank : Nat)
    (incoming : Frontier) : Tail × Progress :=
  let (tail, b) :=
    match step.loopKind with
    | some kind => p.builder.drawLoop step kind.conditionKind rank incoming
    | none => p.builder.drawPlain step rank incoming
  (tail, ⟨b, (step.id, ⟨tail.nodeId, rank⟩) :: p.landings⟩)

/-- Draws a chain from the rank on. -/
def drawChain (rank : Nat) (incoming : Frontier) :
    List ChainStep → Progress → Progress
  | [], p => p
  | step :: steps, p =>
    let (tail, p) := p.drawStep step rank incoming
    drawChain (rank + 1) [tail] steps p

/-- Draws all chains of a graph from the rank on. -/
def drawGraph (p : Progress) (graph : ChainGraph) (rank : Nat)
    (incoming : Frontier) : Progress :=
  graph.heads.foldl
    (fun p head => p.drawChain rank incoming (graph.chain head)) p

/-! ## Subscribers -/

/-- What stands between the steps that a subscriber key waits for. -/
def keySeparator : String := "&&"

/-- The steps that a subscriber key waits for. -/
def keyParts (key : String) : List String :=
  Text.parts keySeparator key

/-- The ends that steps left their chains on, and the rank behind all of them;
or the first step that is not drawn yet. -/
def sources (p : Progress) : List String → Except String (Frontier × Nat)
  | [] => .ok ([], 0)
  | stepId :: stepIds =>
    match p.landings.lookup stepId with
    | none => .error stepId
    | some landing =>
      (p.sources stepIds).map fun (tails, rank) =>
        (⟨landing.nodeId, stepId⟩ :: tails, max (landing.rank + 1) rank)

/-- Where a subscriber graph hangs; or what it waits for, which is the key
itself if the key names no step. -/
def sourcesOfKey (p : Progress) (key : String) :
    Except String (Frontier × Nat) :=
  if (keyParts key).isEmpty then .error key else p.sources (keyParts key)

/-- Goes through subscriber graphs once and draws those that wait for nothing.
Yields the others in their order. -/
def sweep (p : Progress) :
    List (String × ChainGraph) → List (String × ChainGraph) × Progress
  | [] => ([], p)
  | (key, graph) :: pending =>
    match p.sourcesOfKey key with
    | .ok (incoming, rank) => (p.drawGraph graph rank incoming).sweep pending
    | .error _ =>
      let (waiting, p) := p.sweep pending
      ((key, graph) :: waiting, p)

/-- The error of a subscriber graph that waits in vain. -/
def waitingError (p : Progress) (key : String) : Error :=
  match p.sourcesOfKey key with
  | .ok _ => .unknownSource key key
  | .error stepId => .unknownSource key stepId

/-- Goes through the subscriber graphs again and again, until none is left or
until none of those that are left could be drawn. -/
def settle (p : Progress) : List (String × ChainGraph) → Except Error Progress
  | [] => .ok p
  | (key, graph) :: pending =>
    let round := p.sweep ((key, graph) :: pending)
    if _h : round.1.length < ((key, graph) :: pending).length then
      round.2.settle round.1
    else
      .error (p.waitingError key)
termination_by pending => pending.length
decreasing_by assumption

end Progress

/-! ## The diagram of a workflow -/

namespace Diagram

/-- The diagram of a main graph and of subscriber graphs, which are gone through
in the given order. -/
def ofGraphs (style : EdgeStyle) (main : ChainGraph)
    (subscribers : List (String × ChainGraph)) : Except Error Diagram :=
  let start := (Progress.mk (Builder.empty style) []).drawGraph main 0 []
  (start.settle subscribers).map fun p => p.builder.finish

/-- The diagram of a workflow. -/
def ofWorkflow (style : EdgeStyle) (workflow : Workflow) :
    Except Error Diagram :=
  ofGraphs style workflow.main workflow.subscribers

end Diagram

end Flowchart
