/-!
# Names in a diagram

The ids of nodes and of edges are made from declared ids, which may repeat or
run into each other.  An id that is taken gets a number from two on, the least
one that is free.
-/

namespace Flowchart

namespace Names

/-- A name with a number behind it. -/
def numbered (base : String) (n : Nat) : String :=
  base ++ "-" ++ toString n

/-- The first of at most `fuel` numbered names from `n` on that is not taken. -/
def searchFree (taken : List String) (base : String) : (fuel n : Nat) → String
  | 0, n => numbered base n
  | fuel + 1, n =>
    if numbered base n ∈ taken then
      searchFree taken base fuel (n + 1)
    else
      numbered base n

/-- The name itself if it is not taken, and otherwise the name with the least
free number from two on.  The search looks at no more numbers than names are
taken. -/
def firstFree (taken : List String) (base : String) : String :=
  if base ∈ taken then searchFree taken base taken.length 2 else base

/-- The id of a node: the declared id if it is not taken, and otherwise a free
name made from the declared id and the rank. -/
def nodeId (taken : List String) (declared : String) (rank : Nat) : String :=
  if declared ∈ taken then
    firstFree taken (numbered declared rank)
  else
    declared

/-- The id of an edge, made from the ids of its ends. -/
def edgeId (taken : List String) (source target : String) : String :=
  firstFree taken ("e" ++ source ++ "-" ++ target)

end Names

/-- The part that a node plays which the document does not declare. -/
inductive Role where
  | branchCondition (branch : Nat)
  | guard
  | loop
  | again
  | finished
  deriving DecidableEq, Repr

/-- The word for a role. -/
def Role.word : Role → String
  | branchCondition branch => "when-" ++ toString branch
  | guard => "when"
  | loop => "loop"
  | again => "continue"
  | finished => "finished"

/-- The id that is asked for on behalf of a role: made from the id of the step
that the node stands by, the rank and the role. -/
def Role.baseId (role : Role) (anchor : String) (rank : Nat) : String :=
  anchor ++ "-" ++ toString rank ++ "-" ++ role.word

end Flowchart
