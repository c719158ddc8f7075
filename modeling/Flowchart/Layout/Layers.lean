import Flowchart.Layout.Ranking
import Std.Data.TreeMap

/-!
# Layers

The vertices of one rank form a row.  An arc that goes down by more than one
rank is routed through dummy vertices, one in each row between its ends, so that
every arc of the expanded graph joins two neighbouring rows.  An arc that does
not go down is left out.

Vertices are known by their ids alone, and so are dummies: where a vertex of the
graph has the id of a dummy, the two share their place in every table.
-/

namespace Flowchart.Layout

/-! ## Routes -/

/-- A table of what is known about vertices. -/
abbrev Table (α : Type) := Std.TreeMap String α

/-- The id of a dummy vertex. -/
def dummyId (n : Nat) : String :=
  "__dummy_" ++ toString n ++ "__"

/-- An arc that goes down, with the dummies that it passes through. -/
structure Route where
  arc : Arc
  /-- The rank of the source. -/
  top : Nat
  dummies : List String
  deriving Repr

namespace Route

/-- The arcs from vertex to vertex, given the vertex before them. -/
def arcsFrom (target : String) :
    (vertex : String) → (dummies : List String) → List Arc
  | vertex, [] => [⟨vertex, target⟩]
  | vertex, dummy :: dummies => ⟨vertex, dummy⟩ :: arcsFrom target dummy dummies

/-- The arcs that the route consists of. -/
def arcs (route : Route) : List Arc :=
  arcsFrom route.arc.target route.arc.source route.dummies

/-- The dummies with their ranks. -/
def rankedDummies (route : Route) : List (String × Nat) :=
  route.dummies.zip (List.range' (route.top + 1) route.dummies.length)

end Route

/-- The routes of the arcs that go down.  Dummies are numbered in a row, from a
number on. -/
def routesFrom (ranks : Ranks) : (number : Nat) → List Arc → List Route
  | _, [] => []
  | number, arc :: arcs =>
    let top := rankOf ranks arc.source
    let bottom := rankOf ranks arc.target
    if bottom ≤ top then
      routesFrom ranks number arcs
    else
      let count := bottom - top - 1
      ⟨arc, top, (List.range' number count).map dummyId⟩ ::
        routesFrom ranks (number + count) arcs

/-! ## Rows -/

/-- The place of every vertex in the order of the graph. -/
def placesOf (ids : List String) : Table Nat :=
  ids.zipIdx.foldl (fun places entry => places.insert entry.1 entry.2) ∅

/-- Adds a dummy behind all places. -/
def addPlace (places : Table Nat) (dummy : String) : Table Nat :=
  places.insert dummy places.size

/-- The rows of a graph, with the arcs between neighbouring rows. -/
structure Layers where
  rows : List (List String)
  arcs : List Arc
  /-- The dummies in the order of their numbers. -/
  dummies : List String

namespace Layers

/-- The vertices of a rank, in order. -/
def row (ranked : List (String × Nat)) (places : Table Nat) (rank : Nat) :
    List String :=
  sortBy (fun a b => compare (places.getD a 0) (places.getD b 0) == .lt)
    ((ranked.filter fun entry => entry.2 == rank).map Prod.fst)

/-- The layers of a graph.  An arc counts only if both its ends are vertices. -/
def ofGraph (ids : List String) (arcs : List Arc) : Layers :=
  let places := placesOf ids
  let arcs := arcs.filter fun arc =>
    ids.contains arc.source && ids.contains arc.target
  let ranks := computeRanks (fun id => places.getD id 0) ids arcs
  let routes := routesFrom ranks 0 arcs
  let rankedDummies := routes.flatMap Route.rankedDummies
  let ranked := ids.map (fun id => (id, rankOf ranks id)) ++ rankedDummies
  let places := (rankedDummies.map Prod.fst).foldl addPlace places
  { rows := (List.range (maxRank ranks + 1)).map (row ranked places)
    arcs := routes.flatMap Route.arcs
    dummies := rankedDummies.map Prod.fst }

end Layers

/-- The neighbours of every vertex on the other side of its arcs, in the order
of the arcs. -/
def neighbours (here there : Arc → String) (arcs : List Arc) :
    Table (List String) :=
  arcs.foldl
    (fun table arc =>
      table.insert (here arc) (table.getD (here arc) [] ++ [there arc])) ∅

/-- The vertices that arcs lead from into a vertex. -/
def neighboursAbove (arcs : List Arc) : Table (List String) :=
  neighbours Arc.target Arc.source arcs

/-- The vertices that arcs lead to from a vertex. -/
def neighboursBelow (arcs : List Arc) : Table (List String) :=
  neighbours Arc.source Arc.target arcs

end Flowchart.Layout
