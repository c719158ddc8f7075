import Flowchart.Diagram.Basic
import Flowchart.Layout.Placement

/-!
# Layouts

A layout is a diagram whose nodes have a place, from top to bottom along the
edges.  The upper left corner of the box around all nodes is the origin.
-/

namespace Flowchart

open Layout (Measures Size Table)

variable {α : Type} [Scalar α]

/-- A point of the drawing. -/
structure Point (α : Type) where
  x : α
  y : α
  deriving Repr

/-- A node with its place. -/
structure PlacedNode (α : Type) where
  node : Node
  center : Point α
  size : Size α
  deriving Repr

/-- The upper left corner of a node. -/
def PlacedNode.position (placed : PlacedNode α) : Point α :=
  ⟨placed.center.x - Scalar.half placed.size.width,
    placed.center.y - Scalar.half placed.size.height⟩

/-- A diagram with places. -/
structure Placed (α : Type) where
  nodes : List (PlacedNode α)
  edges : List Edge
  /-- Half the width of the whole drawing. -/
  fullWidth : α
  /-- Half the height of the whole drawing. -/
  fullHeight : α
  deriving Repr

/-- The node with an id. -/
def Placed.node? (placed : Placed α) (id : String) : Option (PlacedNode α) :=
  placed.nodes.find? fun entry => entry.node.id == id

namespace Layout

/-- The size of a node. -/
def Measures.nodeSize (measures : Measures α) (node : Node) : Size α :=
  ⟨measures.nodeWidth,
    if node.payload.isLarge then measures.largeNodeHeight
    else measures.nodeHeight⟩

/-- The sizes of the nodes of a graph and of its dummies. -/
def sizesOf (measures : Measures α) (nodes : List Node)
    (dummies : List String) : Table (Size α) :=
  let sizes := nodes.foldl
    (fun sizes node => sizes.insert node.id (measures.nodeSize node)) ∅
  dummies.foldl (fun sizes dummy => sizes.insert dummy .zero) sizes

/-- The smallest of numbers, zero if there are none. -/
def least : List α → α
  | [] => 0.0
  | x :: xs => xs.foldl Scalar.smaller x

/-- Moves placed nodes so that their smallest left and upper edges are zero. -/
def toOrigin (nodes : List (PlacedNode α)) : List (PlacedNode α) :=
  let left := least (nodes.map fun placed => placed.position.x)
  let top := least (nodes.map fun placed => placed.position.y)
  nodes.map fun placed =>
    { placed with center := ⟨placed.center.x - left, placed.center.y - top⟩ }

/-- The greatest of numbers, at least zero. -/
def greatest (xs : List α) : α :=
  xs.foldl Scalar.larger 0.0

end Layout

namespace Diagram

open Layout

/-- The arcs of a diagram. -/
def arcs (diagram : Diagram) : List Arc :=
  diagram.edges.map fun edge => ⟨edge.source, edge.target⟩

/-- The layers of a diagram. -/
def layers (diagram : Diagram) : Layers :=
  .ofGraph (diagram.nodes.map Node.id) diagram.arcs

/-- The nodes of a diagram with their places, before they are moved to the
origin. -/
def placeNodes (measures : Measures α) (diagram : Diagram) :
    List (PlacedNode α) :=
  let layers := diagram.layers
  let rows := orderRows layers.arcs measures.orderPasses layers.rows
  let sizes := sizesOf measures diagram.nodes layers.dummies
  let xs := horizontalCenters measures sizes layers.arcs rows
  let ys := verticalCenters measures sizes rows
  diagram.nodes.map fun node =>
    ⟨node, ⟨xs.getD node.id 0.0, ys.getD node.id 0.0⟩, sizeAt sizes node.id⟩

/-- The layout of a diagram.  A diagram without nodes takes no room. -/
def place (measures : Measures α) (diagram : Diagram) : Placed α :=
  let nodes :=
    if diagram.isEmpty then [] else toOrigin (diagram.placeNodes measures)
  { nodes
    edges := diagram.edges
    fullWidth := Scalar.half (greatest (nodes.map fun placed =>
      placed.center.x + Scalar.half placed.size.width))
    fullHeight := Scalar.half (greatest (nodes.map fun placed =>
      placed.center.y + Scalar.half placed.size.height)) }

end Diagram

end Flowchart
