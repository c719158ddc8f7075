import Flowchart.Diagram.OfFlow
import Mathlib

/-!
# Aligned flows

A flow is aligned when each of its conditional entries, at every depth of
branches, has one condition for each branch.  The entry points of an entry are
checked before the entry itself, and those of a parallel branch are not checked
again; together the two checks see every conditional entry, so a flow passes
them exactly when it is aligned.
-/

namespace Flowchart.Entry

/-! ## Alignment -/

mutual

/-- The conditional entries in an entry have a condition for each branch. -/
def Aligned : Entry → Prop
  | .parallel branches => BranchesAligned branches
  | .conditional branches conditions =>
    branches.length = conditions.length ∧ BranchesAligned branches
  | _ => True
termination_by structural e => e

/-- The conditional entries in a flow have a condition for each branch. -/
def FlowAligned : List Entry → Prop
  | [] => True
  | e :: flow => Aligned e ∧ FlowAligned flow
termination_by structural flow => flow

/-- The conditional entries in several branches have a condition for each of
their own branches. -/
def BranchesAligned : List (List Entry) → Prop
  | [] => True
  | branch :: branches => FlowAligned branch ∧ BranchesAligned branches
termination_by structural branches => branches

end

/-! ## The checks -/

theorem mismatch?_eq_none_iff
    {rank : Nat} {branches : List (List Entry)}
    {conditions : List Condition} :
    mismatch? rank branches conditions = none ↔
      branches.length = conditions.length := by
  unfold mismatch?
  split <;> simp_all

/- The induction follows the branches of an entry.  A flow is met in two ways:
behind entry points that were checked with its parallel entry, or unchecked. -/
mutual

theorem entranceMismatch?_and_bodyMismatch?_eq_none_iff (rank : Nat) :
    (e : Entry) →
      (entranceMismatch? rank e = none ∧ bodyMismatch? rank e = none ↔
        Aligned e)
  | .parallel branches => by
      simp only [entranceMismatch?, bodyMismatch?, Aligned]
      exact (branchesMismatch?_eq_none_iff rank branches).1
  | .conditional branches conditions => by
      simp only [entranceMismatch?, bodyMismatch?, Aligned,
        mismatch?_eq_none_iff]
      rw [(branchesMismatch?_eq_none_iff rank branches).2]
  | .step _ | .foreach _ _ | .sleep _ _ | .sleepUntil _ _
  | .waitForEvent _ _ _ | .loop _ _ _ => by
      simp [entranceMismatch?, bodyMismatch?, Aligned]
termination_by structural e => e

theorem flowMismatch?_eq_none_iff (rank : Nat) :
    (flow : List Entry) →
      (headMismatch? rank flow = none ∧ flowMismatch? rank true flow = none ↔
        FlowAligned flow) ∧
      (flowMismatch? rank false flow = none ↔ FlowAligned flow)
  | [] => by simp [headMismatch?, flowMismatch?, FlowAligned]
  | e :: flow => by
      have hentry := entranceMismatch?_and_bodyMismatch?_eq_none_iff rank e
      have hflow := (flowMismatch?_eq_none_iff (rank + 1) flow).2
      simp only [headMismatch?, flowMismatch?, FlowAligned,
        Option.or_eq_none_iff, ← hentry, hflow]
      simp [and_assoc]
termination_by structural flow => flow

theorem branchesMismatch?_eq_none_iff (rank : Nat) :
    (branches : List (List Entry)) →
      (headsMismatch? rank branches = none ∧
          branchesMismatch? rank true branches = none ↔
        BranchesAligned branches) ∧
      (branchesMismatch? rank false branches = none ↔
        BranchesAligned branches)
  | [] => by simp [headsMismatch?, branchesMismatch?, BranchesAligned]
  | branch :: branches => by
      have hbranch := flowMismatch?_eq_none_iff rank branch
      have hbranches := branchesMismatch?_eq_none_iff rank branches
      simp only [headsMismatch?, branchesMismatch?, BranchesAligned,
        Option.or_eq_none_iff, ← hbranch.1, ← hbranches.1]
      constructor
      · tauto
      · rw [hbranch.2, hbranches.2, ← hbranch.1, ← hbranches.1]
termination_by structural branches => branches

end

end Flowchart.Entry

namespace Flowchart.Diagram

/-- A flow has a diagram exactly if it is aligned once its else branches are
folded, and the diagram is then the one of the folded flow. -/
theorem ofFlow_eq_ok_iff
    {style : EdgeStyle} {flow : Flow} {diagram : Diagram} :
    ofFlow style flow = .ok diagram ↔
      Entry.FlowAligned flow.foldElse ∧
        ofFoldedFlow style flow.foldElse = diagram := by
  rw [← (Entry.flowMismatch?_eq_none_iff 0 flow.foldElse).2]
  unfold ofFlow
  split
  · next herror => simp [herror]
  · next hnone => simp [hnone]

theorem ofFlow_eq_ok
    {flow : Flow}
    (hnone : Entry.flowMismatch? 0 false flow.foldElse = none)
    (style : EdgeStyle) :
    ofFlow style flow = .ok (ofFoldedFlow style flow.foldElse) := by
  rw [ofFlow, hnone]

end Flowchart.Diagram
