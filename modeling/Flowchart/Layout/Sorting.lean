/-!
# Stable sorting

Sorting by insertion.  Items are taken from the left; each one moves to the left
past the items that it is less than, one after the other, and stops at the first
that it is not less than.  So equal items keep their order, and the result is
also settled for a relation that is no order.
-/

namespace Flowchart.Layout

variable {α : Type}

/-- Puts an item into a list whose last item stands first. -/
def insertBack (less : α → α → Bool) (x : α) : List α → List α
  | [] => [x]
  | y :: ys => if less x y then y :: insertBack less x ys else x :: y :: ys

/-- The items in ascending order. -/
def sortBy (less : α → α → Bool) (xs : List α) : List α :=
  (xs.foldl (fun sorted x => insertBack less x sorted) []).reverse

/-- A pair is less than another if it has the smaller first part, or equal first
parts and the smaller second part. -/
def lexLess [Ord α] [Ord β] (a b : α × β) : Bool :=
  match compare a.1 b.1 with
  | .lt => true
  | .eq => compare a.2 b.2 == .lt
  | .gt => false

end Flowchart.Layout
