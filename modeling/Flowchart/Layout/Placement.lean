import Flowchart.Layout.Crossing
import Flowchart.Layout.Scalar

/-!
# Placement

Every row is a band as tall as its tallest vertex.  Within its row, a vertex is
drawn towards the median of its neighbours' centers, first those above and then
those below, and pushed to the right as far as the vertex before it demands;
afterwards the whole row is moved so that its mean is the one that was asked
for.
-/

namespace Flowchart.Layout

variable {α : Type} [Scalar α]

/-! ## Measures -/

/-- The measures that a layout goes by. -/
structure Measures (α : Type) where
  nodeWidth : α
  nodeHeight : α
  largeNodeHeight : α
  /-- The least distance between the nodes of a row. -/
  nodeSpacing : α
  /-- The distance between rows. -/
  rankSpacing : α
  /-- How often rows are ordered and placed. -/
  orderPasses : Nat
  deriving Repr

/-- A width and a height. -/
structure Size (α : Type) where
  width : α
  height : α
  deriving Repr

/-- The size of what is not drawn. -/
def Size.zero : Size α := ⟨0.0, 0.0⟩

/-- The size of a vertex. -/
def sizeAt (sizes : Table (Size α)) (id : String) : Size α :=
  sizes.getD id .zero

/-! ## Rows as bands -/

/-- The height of the tallest vertex of a row. -/
def bandHeight (sizes : Table (Size α)) (row : List String) : α :=
  row.foldl (fun band id => Scalar.larger band (sizeAt sizes id).height) 0.0

/-- The vertical centers of the vertices of the rows from a height on.  A row
without height takes no room. -/
def placeBands (measures : Measures α) (sizes : Table (Size α)) :
    (top : α) → List (List String) → Table α → Table α
  | _, [], centers => centers
  | top, row :: rows, centers =>
    let band := bandHeight sizes row
    let centers := row.foldl
      (fun centers id => centers.insert id (top + Scalar.half band)) centers
    let next :=
      if Scalar.less 0.0 band then top + (band + measures.rankSpacing) else top
    placeBands measures sizes next rows centers

/-! ## Places within rows -/

/-- The horizontal centers of the vertices of a row that is packed from a point
on. -/
def packRow (measures : Measures α) (sizes : Table (Size α)) :
    (left : α) → List String → Table α → Table α
  | _, [], centers => centers
  | left, id :: ids, centers =>
    let width := (sizeAt sizes id).width
    packRow measures sizes (left + (width + measures.nodeSpacing)) ids
      (centers.insert id (left + Scalar.half width))

/-- The median of numbers, if there are any. -/
def median? (xs : List α) : Option α :=
  let sorted := sortBy Scalar.less xs
  let middle := sorted.length / 2
  if sorted.length % 2 = 1 then
    sorted[middle]?
  else
    match sorted[middle - 1]?, sorted[middle]? with
    | some a, some b => some ((a + b) * 0.5)
    | _, _ => none

/-- A vertex that is being placed. -/
structure Candidate (α : Type) where
  id : String
  /-- Where the vertex would like to have its center. -/
  desired : α
  halfWidth : α
  /-- The position in the row. -/
  index : Nat

/-- Where a vertex would like to have its center: near the median of its
neighbours' centers. -/
def desiredCenter (neighbours : Table (List String)) (centers : Table α)
    (id : String) : α :=
  let current := centers.getD id 0.0
  match median? ((neighbours.getD id []).filterMap
    fun neighbour => centers[neighbour]?) with
  | some median => median * 0.85 + current * 0.15
  | none => current

/-- The vertices of a row with their wishes. -/
def candidates (sizes : Table (Size α)) (neighbours : Table (List String))
    (centers : Table α) (row : List String) : List (Candidate α) :=
  row.zipIdx.map fun (id, index) =>
    ⟨id, desiredCenter neighbours centers id,
      Scalar.half (sizeAt sizes id).width, index⟩

/-- A candidate stands to the left of another: it would like to or, if both
would like to have the same center, it comes first in the row. -/
def Candidate.before (a b : Candidate α) : Bool :=
  Scalar.less a.desired b.desired ||
    (!Scalar.less b.desired a.desired && a.index < b.index)

/-- Gives every candidate the center that it would like to have or, if that is
too close to the candidate before it, the first center that is not. -/
def spread (spacing : α) :
    (before : Option (α × α)) → List (Candidate α) → List (String × α)
  | _, [] => []
  | before, candidate :: rest =>
    let center :=
      match before with
      | none => candidate.desired
      | some (center, halfWidth) =>
        Scalar.larger candidate.desired
          (center + halfWidth + candidate.halfWidth + spacing)
    (candidate.id, center) ::
      spread spacing (some (center, candidate.halfWidth)) rest

/-- Places the vertices of a row by their neighbours. -/
def placeRow (measures : Measures α) (sizes : Table (Size α))
    (neighbours : Table (List String)) (centers : Table α)
    (row : List String) : Table α :=
  let sorted :=
    sortBy Candidate.before (candidates sizes neighbours centers row)
  let spreadOut := spread measures.nodeSpacing none sorted
  let shift := Scalar.mean (sorted.map Candidate.desired) -
    Scalar.mean (spreadOut.map Prod.snd)
  spreadOut.foldl
    (fun centers entry => centers.insert entry.1 (entry.2 + shift)) centers

/-- Places every row by the neighbours above, from top to bottom, and then by
the neighbours below, from bottom to top. -/
def placeRows (measures : Measures α) (sizes : Table (Size α))
    (above below : Table (List String)) (rows : List (List String))
    (centers : Table α) : Table α :=
  let down := rows.foldl (placeRow measures sizes above) centers
  rows.reverse.foldl (placeRow measures sizes below) down

/-- The horizontal centers of all vertices. -/
def horizontalCenters (measures : Measures α) (sizes : Table (Size α))
    (arcs : List Arc) (rows : List (List String)) : Table α :=
  let packed := rows.foldl
    (fun centers row => packRow measures sizes 0.0 row centers) ∅
  iterate
    (placeRows measures sizes (neighboursAbove arcs) (neighboursBelow arcs)
      rows)
    (max measures.orderPasses 1) packed

/-- The vertical centers of all vertices. -/
def verticalCenters (measures : Measures α) (sizes : Table (Size α))
    (rows : List (List String)) : Table α :=
  placeBands measures sizes 0.0 rows ∅

end Flowchart.Layout
