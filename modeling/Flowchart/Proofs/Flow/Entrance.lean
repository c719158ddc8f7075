import Flowchart.Diagram.OfFlow
import Flowchart.Proofs.Settling

/-!
# Entrances

The ids of entry points are claimed long before their nodes are drawn.  This
module fixes what an entrance says about the entry that it was claimed for, and
that claiming it hands out exactly the ids of its points.
-/

namespace Flowchart

open Names

/-! ## The shape of entrances -/

/-- The id that the condition node of a branch asks for. -/
def guardBaseId (rank index : Nat) (branch : List Entry) : String :=
  (Role.branchCondition index).baseId
    ((branchStepId? branch).getD anonymousAnchor) rank

namespace Entrance

/-- The points are condition nodes of the branches, numbered from `index`. -/
inductive FitsGuards (rank : Nat) :
    Nat → List (List Entry) → List Tail → Prop
  | nil {index} : FitsGuards rank index [] []
  | cons {index branch branches point points}
      (name : IsRenaming (guardBaseId rank index branch) rank point.nodeId)
      (stepId : point.stepId = (branchStepId? branch).getD point.nodeId)
      (rest : FitsGuards rank (index + 1) branches points) :
      FitsGuards rank index (branch :: branches) (point :: points)

mutual

/-- The entrance was made for the entry: it has the shape of the entry, and its
ids are made from what the entry declares. -/
inductive Fits (rank : Nat) : Entry → Entrance → Prop
  | node {e point}
      (declared : e.declaredId? = some point.stepId)
      (name : IsRenaming point.stepId rank point.nodeId) :
      Fits rank e (.node point)
  | guards {branches conditions points}
      (fits : FitsGuards rank 0 branches points) :
      Fits rank (.conditional branches conditions) (.guards points)
  | fork {branches heads} (fits : FitsHeads rank branches heads) :
      Fits rank (.parallel branches) (.fork heads)

/-- Each branch that has entries has an entrance for the first of them. -/
inductive FitsHeads (rank : Nat) :
    List (List Entry) → List (Option Entrance) → Prop
  | nil : FitsHeads rank [] []
  | empty {branches heads} (rest : FitsHeads rank branches heads) :
      FitsHeads rank ([] :: branches) (none :: heads)
  | cons {e flow entrance branches heads} (head : Fits rank e entrance)
      (rest : FitsHeads rank branches heads) :
      FitsHeads rank ((e :: flow) :: branches) (some entrance :: heads)

end

end Entrance

/-! ## Claiming -/

namespace Builder

open Entrance

theorem claimGuards_claims
    (rank index : Nat) (branches : List (List Entry)) (b : Builder) :
    Claims b (claimGuards rank index branches b).2
      (claimGuards rank index branches b).1 := by
  induction branches generalizing index b with
  | nil => exact Claims.refl b
  | cons branch branches ih =>
      exact (claims_claim b (guardBaseId rank index branch) rank _).trans
        (ih (index + 1) _)

theorem claimGuards_fits
    (rank index : Nat) (branches : List (List Entry)) (b : Builder) :
    FitsGuards rank index branches (claimGuards rank index branches b).1 := by
  induction branches generalizing index b with
  | nil => exact .nil
  | cons branch branches ih =>
      refine .cons ?_ rfl (ih (index + 1) _)
      exact claim_isRenaming b (guardBaseId rank index branch) rank

theorem claimNode_claims (rank : Nat) (declared : String) (b : Builder) :
    Claims b (claimNode rank declared b).2
      (claimNode rank declared b).1.points := by
  exact claims_claim b declared rank declared

theorem claimNode_fits
    {e : Entry} {declared : String} (he : e.declaredId? = some declared)
    (rank : Nat) (b : Builder) :
    Fits rank e (claimNode rank declared b).1 :=
  .node he (claim_isRenaming b declared rank)

mutual

theorem claimEntrance_claims (rank : Nat) :
    (e : Entry) → (b : Builder) →
      Claims b (claimEntrance rank e b).2 (claimEntrance rank e b).1.points
  | .parallel branches, b => claimHeads_claims rank branches b
  | .conditional branches _, b => claimGuards_claims rank 0 branches b
  | .step s, b | .foreach s _, b | .loop s _ _, b =>
      claimNode_claims rank s.id b
  | .sleep id _, b | .sleepUntil id _, b | .waitForEvent id _ _, b =>
      claimNode_claims rank id b
termination_by structural e => e

theorem claimHeads_claims (rank : Nat) :
    (branches : List (List Entry)) → (b : Builder) →
      Claims b (claimHeads rank branches b).2
        (pointsOfHeads (claimHeads rank branches b).1)
  | [], b => Claims.refl b
  | branch :: branches, b =>
      (claimHead_claims rank branch b).trans
        (claimHeads_claims rank branches _)
termination_by structural branches => branches

theorem claimHead_claims (rank : Nat) :
    (branch : List Entry) → (b : Builder) →
      Claims b (claimHead rank branch b).2
        (pointsOfHead (claimHead rank branch b).1)
  | [], b => Claims.refl b
  | e :: _, b => claimEntrance_claims rank e b
termination_by structural branch => branch

end

mutual

theorem claimEntrance_fits (rank : Nat) :
    (e : Entry) → (b : Builder) → Fits rank e (claimEntrance rank e b).1
  | .parallel branches, b => .fork (claimHeads_fits rank branches b)
  | .conditional branches _, b => .guards (claimGuards_fits rank 0 branches b)
  | .step _, b | .foreach _ _, b | .loop _ _ _, b =>
      claimNode_fits rfl rank b
  | .sleep _ _, b | .sleepUntil _ _, b | .waitForEvent _ _ _, b =>
      claimNode_fits rfl rank b
termination_by structural e => e

theorem claimHeads_fits (rank : Nat) :
    (branches : List (List Entry)) → (b : Builder) →
      FitsHeads rank branches (claimHeads rank branches b).1
  | [], _ => .nil
  | [] :: branches, b => .empty (claimHeads_fits rank branches b)
  | (e :: _) :: branches, b =>
      .cons (claimEntrance_fits rank e b) (claimHeads_fits rank branches _)
termination_by structural branches => branches

end

end Builder

end Flowchart
