import Flowchart.Diagram.Encode
import Flowchart.Document.Render
import Flowchart.Layout.Basic

/-!
# Drawings

A drawing is what a diagram looks like: nodes with a place and a size, and
edges.  A diagram that is not laid out is drawn with all its nodes at the
origin, in the size that they would have.
-/

namespace Flowchart

open Layout (Measures Size)

variable {α : Type} [Scalar α]

/-- A node of a drawing. -/
structure DrawnNode (α : Type) where
  id : String
  kind : NodeKind
  position : Point α
  size : Size α
  payload : Payload
  deriving Repr

/-- A drawing. -/
structure Drawing (α : Type) where
  /-- The path of the nested flow that is drawn. -/
  label : Option String
  nodes : List (DrawnNode α)
  edges : List Edge
  fullWidth : α
  fullHeight : α
  deriving Repr

namespace Drawing

/-- The drawing of a layout. -/
def ofPlaced (placed : Placed α) : Drawing α where
  label := none
  nodes := placed.nodes.map fun entry =>
    ⟨entry.node.id, entry.node.kind, entry.position, entry.size,
      entry.node.payload⟩
  edges := placed.edges
  fullWidth := placed.fullWidth
  fullHeight := placed.fullHeight

/-- The drawing of a diagram that is not laid out. -/
def ofDiagram (measures : Measures α) (diagram : Diagram) : Drawing α where
  label := none
  nodes := diagram.nodes.map fun node =>
    ⟨node.id, node.kind, ⟨0.0, 0.0⟩, measures.nodeSize node, node.payload⟩
  edges := diagram.edges
  fullWidth := 0.0
  fullHeight := 0.0

/-- The same drawing with a label. -/
def withLabel (drawing : Drawing α) (label : Option String) : Drawing α :=
  { drawing with label }

/-- The written form of a node. -/
def nodeTree (node : DrawnNode Float32) : Tree :=
  .map [("id", .text node.id), ("type", .text node.kind.word),
    ("position", Tree.coordinates node.position.x node.position.y),
    ("width", .single node.size.width), ("height", .single node.size.height),
    ("data", node.payload.toTree)]

/-- The written form of a drawing. -/
def toTree (drawing : Drawing Float32) : Tree :=
  .map <|
    Tree.optionalField "label" (drawing.label.map .text) ++
    [("nodes", .list (drawing.nodes.map nodeTree)),
      ("edges", .list (drawing.edges.map Edge.toTree)),
      ("fullWidth", .single drawing.fullWidth),
      ("fullHeight", .single drawing.fullHeight)]

/-- The text of a drawing, on one line or over several lines. -/
def toText (pretty : Bool) (drawing : Drawing Float32) : String :=
  if pretty then drawing.toTree.renderIndented 0 else drawing.toTree.render

end Drawing

end Flowchart
