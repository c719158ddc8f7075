import Flowchart.Layout.Layers
import Flowchart.Layout.Scalar

/-!
# The order within rows

To reduce crossings, every row is sorted by the medians of the positions of its
vertices' neighbours in the row above, from top to bottom, and then by those in
the row below, from bottom to top; this is repeated several times.  A vertex
without neighbours keeps the position that it has.

Positions and medians are numbers of single precision.  Medians are doubled
here, so that they are whole numbers; and they are rounded as the program rounds
them, which makes a difference in rows of more than 2^23 vertices.
-/

namespace Flowchart.Layout

/-- The position of every vertex within its row. -/
def positionsOf (rows : List (List String)) : Table Nat :=
  rows.foldl
    (fun positions row =>
      row.zipIdx.foldl
        (fun positions entry => positions.insert entry.1 entry.2) positions)
    ∅

/-- Twice the median of numbers of single precision that are sorted.  The sum of
two of them is rounded; half of a sum need not be. -/
def doubledMedian (sorted : List Nat) : Nat :=
  let middle := sorted.length / 2
  if sorted.length % 2 = 1 then
    2 * sorted.getD middle 0
  else
    toSingle (sorted.getD (middle - 1) 0 + sorted.getD middle 0)

/-- Twice the median of the positions of a vertex's neighbours, or twice its own
position if it has no neighbours. -/
def score (neighbours : Table (List String)) (positions own : Table Nat)
    (id : String) : Nat :=
  let values := (neighbours.getD id []).filterMap
    fun neighbour => positions[neighbour]?.map toSingle
  if values.isEmpty then
    2 * toSingle (own.getD id 0)
  else
    doubledMedian (sortBy (fun a b => a < b) values)

/-- Sorts a row by the scores of its vertices, and equal scores by the
position. -/
def sortRow (neighbours : Table (List String)) (positions : Table Nat)
    (row : List String) : List String :=
  let own := positionsOf [row]
  let keyed := row.map fun id =>
    ((score neighbours positions own id, own.getD id 0), id)
  (sortBy (fun a b => lexLess a.1 b.1) keyed).map Prod.snd

/-- Sorts the row of a rank, if it has more than one vertex. -/
def sortRank (neighbours : Table (List String)) (rows : List (List String))
    (rank : Nat) : List (List String) :=
  rows.modify rank fun row =>
    if row.length ≤ 1 then row
    else sortRow neighbours (positionsOf rows) row

/-- Sorts every row but the first from top to bottom, and every row but the last
from bottom to top. -/
def sortRows (above below : Table (List String)) (rows : List (List String)) :
    List (List String) :=
  let down := (List.range' 1 (rows.length - 1)).foldl (sortRank above) rows
  (List.range (rows.length - 1)).reverse.foldl (sortRank below) down

/-- Does something a number of times. -/
def iterate (f : α → α) : (count : Nat) → α → α
  | 0, a => a
  | count + 1, a => iterate f count (f a)

/-- The rows in the order in which they are drawn.  They are sorted at least
once. -/
def orderRows (arcs : List Arc) (passes : Nat) (rows : List (List String)) :
    List (List String) :=
  iterate (sortRows (neighboursAbove arcs) (neighboursBelow arcs))
    (max passes 1) rows

end Flowchart.Layout
