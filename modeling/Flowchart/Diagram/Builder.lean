import Flowchart.Diagram.Basic
import Flowchart.Diagram.Names

/-!
# Building diagrams

A builder holds the part of a diagram that is already there and the node ids
that are handed out.  An id may be claimed long before its node is added.
-/

namespace Flowchart

/-- A diagram under construction. -/
structure Builder where
  style : EdgeStyle
  /-- The node ids that are handed out. -/
  claimed : List String
  nodes : List Node
  edges : List Edge
  deriving Repr

namespace Builder

/-- The builder without nodes and edges. -/
def empty (style : EdgeStyle) : Builder := ⟨style, [], [], []⟩

/-- Hands out a node id for a declared id. -/
def claim (b : Builder) (declared : String) (rank : Nat) : String × Builder :=
  let id := Names.nodeId b.claimed declared rank
  (id, { b with claimed := id :: b.claimed })

/-- Hands out a node id for a node that the document does not declare. -/
def claimRole (b : Builder) (anchor : String) (rank : Nat) (role : Role) :
    String × Builder :=
  b.claim (role.baseId anchor rank) rank

/-- Adds a node. -/
def push (b : Builder) (id : String) (kind : NodeKind) (payload : Payload) :
    Builder :=
  { b with nodes := b.nodes ++ [⟨id, kind, payload⟩] }

/-- Two nodes are joined. -/
def isWired (b : Builder) (source target : String) : Bool :=
  b.edges.any fun edge => edge.source == source && edge.target == target

/-- Joins an open end to an entry point, unless they are already joined. -/
def connect (b : Builder) (source target : Tail) : Builder :=
  if b.isWired source.nodeId target.nodeId then
    b
  else
    let id := Names.edgeId (b.edges.map Edge.id) source.nodeId target.nodeId
    { b with edges := b.edges ++
        [⟨id, source.nodeId, target.nodeId, source.stepId, target.stepId,
          b.style⟩] }

/-- Joins every open end to every entry point. -/
def connectAll (b : Builder) (sources targets : Frontier) : Builder :=
  sources.foldl
    (fun b source => targets.foldl (fun b target => b.connect source target) b)
    b

/-- Notes in a node whether edges enter and leave it. -/
def withHandles (edges : List Edge) (node : Node) : Node :=
  { node with payload := { node.payload with
      withoutTopHandle := !edges.any fun edge => edge.target == node.id
      withoutBottomHandle := !edges.any fun edge => edge.source == node.id } }

/-- The finished diagram. -/
def finish (b : Builder) : Diagram :=
  ⟨b.nodes.map (withHandles b.edges), b.edges⟩

end Builder

end Flowchart
