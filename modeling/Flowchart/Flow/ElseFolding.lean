import Flowchart.Flow.Basic

/-!
# Folding of else branches

A conditional entry whose first condition is an `else` belongs to the
conditional entry right before it and is merged into that entry, in every flow,
at every depth of branches.  Nested flows stay as they are.
-/

namespace Flowchart

/-- The first condition is an `else`. -/
def opensWithElse : List Condition → Bool
  | [] => false
  | condition :: _ => condition.kind == .elseKind

namespace Entry

/-- The merger of an entry with the entry behind it, if the second one is an
else to the first. -/
def merge? : Entry → Entry → Option Entry
  | .conditional branches conditions, .conditional branches' conditions' =>
    if opensWithElse conditions' then
      some (.conditional (branches ++ branches') (conditions ++ conditions'))
    else
      none
  | _, _ => none

mutual

/-- Folds the branches of an entry. -/
def foldElse : Entry → Entry
  | .parallel branches => .parallel (foldElseBranches branches)
  | .conditional branches conditions =>
    .conditional (foldElseBranches branches) conditions
  | e => e
termination_by structural e => e

/-- Folds each of several branches. -/
def foldElseBranches : List (List Entry) → List (List Entry)
  | [] => []
  | branch :: branches => foldElseFlow branch :: foldElseBranches branches
termination_by structural branches => branches

/-- Folds a flow. -/
def foldElseFlow : List Entry → List Entry
  | [] => []
  | e :: flow => foldElseAfter e.foldElse flow
termination_by structural flow => flow

/-- Folds a flow behind an entry that is already folded. -/
def foldElseAfter (last : Entry) : List Entry → List Entry
  | [] => [last]
  | e :: flow =>
    match merge? last e.foldElse with
    | some merged => foldElseAfter merged flow
    | none => last :: foldElseAfter e.foldElse flow
termination_by structural flow => flow

end

end Entry

/-- The flow with its else branches folded. -/
def Flow.foldElse (flow : Flow) : Flow :=
  Entry.foldElseFlow flow

end Flowchart
