import Flowchart.Layout.Sorting

/-!
# Ranks

Every vertex of a graph gets a rank, the length of a longest path that ends in
it.  To this end the vertices are put into an order, and only edges that go
forward in the order count.  The order takes, again and again, the first vertex
all of whose predecessors are already taken; if there is none, the graph has a
cycle, and the first vertex that is left is taken all the same.  Which vertex is
first is decided by a given priority, and by the id among vertices with the same
priority.
-/

namespace Flowchart.Layout

/-- An edge between two vertices, which are known by their ids. -/
structure Arc where
  source : String
  target : String
  deriving DecidableEq, Repr

/-- The vertices in the order of their priority, each of them once. -/
def byPriority (priority : String → Nat) (ids : List String) : List String :=
  sortBy (fun a b => lexLess (priority a, a) (priority b, b)) ids.eraseDups

/-- The arcs between two different vertices of a graph. -/
def properArcs (ids : List String) (arcs : List Arc) : List Arc :=
  arcs.filter fun arc =>
    arc.source != arc.target && ids.contains arc.source &&
      ids.contains arc.target

/-- No arc leads from a vertex that is still pending into the vertex. -/
def isReady (arcs : List Arc) (pending : List String) (id : String) : Bool :=
  arcs.all fun arc => arc.target != id || !pending.contains arc.source

/-- The vertex that is taken next: the first one that is ready or, in a cycle,
the first one. -/
def next? (arcs : List Arc) (pending : List String) : Option String :=
  (pending.find? (isReady arcs pending)).or pending.head?

/-- Takes at most `count` pending vertices, one after the other. -/
def takeInOrder (arcs : List Arc) :
    (count : Nat) → (pending : List String) → List String
  | 0, _ => []
  | count + 1, pending =>
    match next? arcs pending with
    | none => []
    | some id => id :: takeInOrder arcs count (pending.erase id)

/-- The vertices in the order in which they are taken. -/
def takingOrder (priority : String → Nat) (ids : List String)
    (arcs : List Arc) : List String :=
  let pending := byPriority priority ids
  takeInOrder (properArcs ids arcs) pending.length pending

/-- The ranks of vertices. -/
abbrev Ranks := List (String × Nat)

/-- The rank of a vertex behind the vertices that already have one: one more
than the greatest rank that an arc comes from. -/
def rankBehind (arcs : List Arc) (ranks : Ranks) (id : String) : Nat :=
  arcs.foldl
    (fun rank arc =>
      if arc.target = id then
        match ranks.lookup arc.source with
        | some r => max rank (r + 1)
        | none => rank
      else
        rank)
    0

/-- Ranks vertices one after the other. -/
def rankInOrder (arcs : List Arc) : Ranks → List String → Ranks
  | ranks, [] => ranks
  | ranks, id :: ids =>
    rankInOrder arcs ((id, rankBehind arcs ranks id) :: ranks) ids

/-- The ranks of all vertices of a graph. -/
def computeRanks (priority : String → Nat) (ids : List String)
    (arcs : List Arc) : Ranks :=
  rankInOrder (properArcs ids arcs) [] (takingOrder priority ids arcs)

/-- The rank of a vertex, zero for an id that is no vertex. -/
def rankOf (ranks : Ranks) (id : String) : Nat :=
  (ranks.lookup id).getD 0

/-- The greatest rank. -/
def maxRank (ranks : Ranks) : Nat :=
  ranks.foldl (fun rank entry => max rank entry.2) 0

end Flowchart.Layout
