import Flowchart.Diagram.Builder
import Flowchart.Error
import Flowchart.Flow.ElseFolding

/-!
# Diagrams of step flows

A flow is drawn entry by entry.  The nodes by which an entry is entered, its
entrance, get their ids before the entry itself is drawn, and the open ends of
the entry before it are joined to them at once; drawing the entry then yields
the open ends that the next entry is joined to.  A node that is drawn asks for
the same edges again, and so does the first entry of a branch of a parallel
entry; nodes that are already joined are not joined twice.

A parallel entry is entered through the first entries of its branches, a
conditional entry through one condition node for each branch.  Condition nodes
lead into their branches only, so that a branch without entries is a dead end.
-/

namespace Flowchart

/-! ## Entrances -/

/-- The entry points of an entry, for which ids are already handed out. -/
inductive Entrance where
  /-- The node of an entry that is entered in one place. -/
  | node (point : Tail)
  /-- The condition nodes of the branches of a conditional entry. -/
  | guards (points : List Tail)
  /-- The entrances of the first entries of the branches of a parallel entry. -/
  | fork (heads : List (Option Entrance))
  deriving Repr

namespace Entrance

mutual

/-- The entry points in their order. -/
def points : Entrance → Frontier
  | .node point => [point]
  | .guards points => points
  | .fork heads => pointsOfHeads heads
termination_by structural e => e

/-- The entry points of the branches of a parallel entry. -/
def pointsOfHeads : List (Option Entrance) → Frontier
  | [] => []
  | head :: heads => pointsOfHead head ++ pointsOfHeads heads
termination_by structural heads => heads

/-- The entry points of one branch. -/
def pointsOfHead : Option Entrance → Frontier
  | none => []
  | some entrance => entrance.points
termination_by structural head => head

end

/-- The entrances of the branches of a parallel entry. -/
def heads : Entrance → List (Option Entrance)
  | .fork heads => heads
  | _ => []

end Entrance

/-! ## Handing out ids -/

/-- The declared id that the condition node of a branch stands in front of. -/
def branchStepId? (branch : List Entry) : Option String :=
  Entry.firstDeclaredIdAt? branch

/-- What the condition node of a branch without a declared id is named after. -/
def anonymousAnchor : String := "conditional"

namespace Builder

/-- Hands out ids for the condition nodes of the branches from number `index`
on. -/
def claimGuards (rank : Nat) :
    (index : Nat) → List (List Entry) → Builder → List Tail × Builder
  | _, [], b => ([], b)
  | index, branch :: branches, b =>
    let anchor := (branchStepId? branch).getD anonymousAnchor
    let (id, b) := b.claimRole anchor rank (.branchCondition index)
    let (points, b) := claimGuards rank (index + 1) branches b
    (⟨id, (branchStepId? branch).getD id⟩ :: points, b)

mutual

/-- Hands out ids for the entry points of an entry. -/
def claimEntrance (rank : Nat) : Entry → Builder → Entrance × Builder
  | .parallel branches, b =>
    let (heads, b) := claimHeads rank branches b
    (.fork heads, b)
  | .conditional branches _, b =>
    let (points, b) := b.claimGuards rank 0 branches
    (.guards points, b)
  | .step s, b | .foreach s _, b | .loop s _ _, b => claimNode rank s.id b
  | .sleep id _, b | .sleepUntil id _, b | .waitForEvent id _ _, b =>
    claimNode rank id b
termination_by structural e => e

/-- Hands out ids for the entry points of the first entries of branches. -/
def claimHeads (rank : Nat) :
    List (List Entry) → Builder → List (Option Entrance) × Builder
  | [], b => ([], b)
  | branch :: branches, b =>
    let (head, b) := claimHead rank branch b
    let (heads, b) := claimHeads rank branches b
    (head :: heads, b)
termination_by structural branches => branches

/-- Hands out ids for the entry points of the first entry of a branch. -/
def claimHead (rank : Nat) : List Entry → Builder → Option Entrance × Builder
  | [], b => (none, b)
  | e :: _, b =>
    let (entrance, b) := claimEntrance rank e b
    (some entrance, b)
termination_by structural branch => branch

/-- Hands out the id of a single node. -/
def claimNode (rank : Nat) (declared : String) (b : Builder) :
    Entrance × Builder :=
  let (id, b) := b.claim declared rank
  (.node ⟨id, declared⟩, b)

end

end Builder

/-! ## What is drawn in a node -/

namespace Step

/-- The kind of the node of a step. -/
def nodeKind (step : Step ε) : NodeKind :=
  if step.isWorkflow then .nested else .standard

end Step

namespace Entry

/-- The kind of the node that an entry without branches is entered through. -/
def nodeKind : Entry → NodeKind
  | .step s | .foreach s _ | .loop s _ _ => s.nodeKind
  | _ => .standard

/-- What is drawn in the node that an entry without branches is entered
through. -/
def payload : Entry → Payload
  | .step s | .loop s _ _ => .ofStep s
  | .foreach s options =>
    { Payload.ofStep s with
      detail := some
        (.foreach (options.map ForeachOptions.concurrency) s.mapConfig) }
  | .sleep id duration =>
    { Payload.labelled id with detail := some (.sleep duration) }
  | .sleepUntil id date =>
    { Payload.labelled id with detail := some (.sleepUntil date) }
  | .waitForEvent id event description =>
    { Payload.labelled id with
      description
      detail := some (.waitForEvent event) }
  | .parallel _ | .conditional _ _ => .labelled ""

end Entry

/-- What is drawn in the node of an exit condition. -/
def ExitCondition.payload (exit : ExitCondition) (kind : LoopKind)
    (stepId : String) : Payload :=
  .ofConditions exit.id [.raw kind.conditionKind exit.expr] (some stepId)
    (some stepId)

/-! ## Drawing -/

namespace Builder

/-- Draws the node of an entry point and joins the open ends to it. -/
def pushPoint (b : Builder) (incoming : Frontier) (point : Tail)
    (kind : NodeKind) (payload : Payload) : Builder :=
  (b.push point.nodeId kind payload).connectAll incoming [point]

/-- Draws the node of an exit condition behind the node of its step. -/
def pushExit (b : Builder) (rank : Nat) (point : Tail) (exit : ExitCondition)
    (kind : LoopKind) : Frontier × Builder :=
  let (id, b) := b.claim exit.id rank
  let b := b.push id .condition (exit.payload kind point.stepId)
  ([⟨id, point.stepId⟩], b.connect point ⟨id, point.stepId⟩)

/-- Draws the condition node of a branch and joins the open ends to it. -/
def pushGuard (b : Builder) (incoming : Frontier) (point : Tail)
    (condition : Condition) : Builder :=
  b.pushPoint incoming point .condition
    (.ofConditions condition.kind.word [condition]
      (Frontier.lastStepId? incoming) (some point.stepId))

/-- The open end of the condition node of a branch. -/
def guardTail (incoming : Frontier) (point : Tail) : Tail :=
  ⟨point.nodeId, (Frontier.lastStepId? incoming).getD point.nodeId⟩

mutual

/-- Draws an entry behind the open ends and yields its own open ends. -/
def drawEntry (rank : Nat) (incoming : Frontier) :
    Entry → Entrance → Builder → Frontier × Builder
  | .parallel branches, entrance, b =>
    drawBranches rank incoming branches entrance.heads b
  | .conditional branches conditions, entrance, b =>
    drawGuarded rank incoming branches conditions entrance.points b
  | .loop s exit kind, entrance, b =>
    match entrance.points with
    | [] => ([], b)
    | point :: _ =>
      (b.pushPoint incoming point s.nodeKind (.ofStep s)).pushExit rank point
        exit kind
  | e, entrance, b =>
    match entrance.points with
    | [] => ([], b)
    | point :: _ => ([point], b.pushPoint incoming point e.nodeKind e.payload)
termination_by structural e => e

/-- Draws a flow from the rank on.  Its first entry may already have its
entrance. -/
def drawFlow (rank : Nat) (incoming : Frontier) (head : Option Entrance) :
    List Entry → Builder → Frontier × Builder
  | [], b => (incoming, b)
  | e :: flow, b =>
    let (entrance, b) :=
      match head with
      | some entrance => (entrance, b)
      | none => b.claimEntrance rank e
    let b := b.connectAll incoming entrance.points
    let (tips, b) := drawEntry rank incoming e entrance b
    drawFlow (rank + 1) tips none flow b
termination_by structural flow => flow

/-- Draws the branches of a parallel entry, given their entrances. -/
def drawBranches (rank : Nat) (incoming : Frontier) :
    List (List Entry) → List (Option Entrance) → Builder → Frontier × Builder
  | [], _, b => ([], b)
  | branch :: branches, heads, b =>
    let (tips, b) :=
      if branch.isEmpty then ([], b)
      else drawFlow rank incoming heads.head?.join branch b
    let (others, b) := drawBranches rank incoming branches heads.tail b
    (tips ++ others, b)
termination_by structural branches => branches

/-- Draws the branches of a conditional entry, each behind its condition
node. -/
def drawGuarded (rank : Nat) (incoming : Frontier) :
    List (List Entry) → List Condition → List Tail → Builder →
      Frontier × Builder
  | branch :: branches, condition :: conditions, point :: points, b =>
    let b := b.pushGuard incoming point condition
    let (tips, b) :=
      if branch.isEmpty then ([], b)
      else drawFlow rank [guardTail incoming point] none branch b
    let (others, b) := drawGuarded rank incoming branches conditions points b
    (tips ++ others, b)
  | _, _, _, b => ([], b)
termination_by structural branches => branches

end

end Builder

/-! ## Mismatches -/

/-- The error of a conditional entry at a rank, if its branches and conditions
differ in number. -/
def mismatch? (rank : Nat) (branches : List (List Entry))
    (conditions : List Condition) : Option Error :=
  if branches.length = conditions.length then none
  else some (.conditionMismatch rank branches.length conditions.length)

namespace Entry

mutual

/-- The first mismatch that is met on the way to the entry points of an
entry. -/
def entranceMismatch? (rank : Nat) : Entry → Option Error
  | .parallel branches => headsMismatch? rank branches
  | .conditional branches conditions => mismatch? rank branches conditions
  | _ => none
termination_by structural e => e

/-- The first mismatch that is met on the way to the entry points of
branches. -/
def headsMismatch? (rank : Nat) : List (List Entry) → Option Error
  | [] => none
  | branch :: branches =>
    (headMismatch? rank branch).or (headsMismatch? rank branches)
termination_by structural branches => branches

/-- The first mismatch that is met on the way to the entry points of a
branch. -/
def headMismatch? (rank : Nat) : List Entry → Option Error
  | [] => none
  | e :: _ => entranceMismatch? rank e
termination_by structural branch => branch

end

mutual

/-- The first mismatch behind the entry points of an entry. -/
def bodyMismatch? (rank : Nat) : Entry → Option Error
  | .parallel branches => branchesMismatch? rank true branches
  | .conditional branches _ => branchesMismatch? rank false branches
  | _ => none
termination_by structural e => e

/-- The first mismatch in a flow.  The way to its first entry points may already
be checked. -/
def flowMismatch? (rank : Nat) (headChecked : Bool) : List Entry → Option Error
  | [] => none
  | e :: flow =>
    ((if headChecked then none else entranceMismatch? rank e).or
      (bodyMismatch? rank e)).or (flowMismatch? (rank + 1) false flow)
termination_by structural flow => flow

/-- The first mismatch in several branches. -/
def branchesMismatch? (rank : Nat) (headChecked : Bool) :
    List (List Entry) → Option Error
  | [] => none
  | branch :: branches =>
    (flowMismatch? rank headChecked branch).or
      (branchesMismatch? rank headChecked branches)
termination_by structural branches => branches

end

end Entry

/-! ## The diagram of a flow -/

namespace Diagram

/-- The diagram of a flow whose else branches are folded and whose conditional
entries have a condition for each branch. -/
def ofFoldedFlow (style : EdgeStyle) (flow : Flow) : Diagram :=
  ((Builder.empty style).drawFlow 0 [] none flow).2.finish

/-- The diagram of a flow. -/
def ofFlow (style : EdgeStyle) (flow : Flow) : Except Error Diagram :=
  match Entry.flowMismatch? 0 false flow.foldElse with
  | some error => .error error
  | none => .ok (ofFoldedFlow style flow.foldElse)

end Diagram

end Flowchart
