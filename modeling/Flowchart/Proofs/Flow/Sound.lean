import Flowchart.Proofs.Flow.Aligned
import Flowchart.Proofs.Flow.Entrance

/-!
# Drawing flows keeps builders sound

Drawing an entry settles the ids of its entry points, and every other id that is
claimed on the way gets its node as well.
-/

namespace Flowchart.Builder

open Entrance Entry

/-! ## Entries and flows -/

/-- The entrance that a flow may bring along belongs to its first entry. -/
def FitsStart (rank : Nat) : List Entry → Option Entrance → Prop
  | _, none => True
  | [], some _ => False
  | e :: _, some entrance => Fits rank e entrance

theorem drawSingle_settles
    {rank : Nat} {incoming : Frontier} {e : Entry} {entrance : Entrance}
    {b : Builder} {declared : String} (he : e.declaredId? = some declared)
    (hfits : Fits rank e entrance) :
    Settles incoming entrance.points b
      (drawEntry rank incoming e entrance b) := by
  cases hfits with
  | @node _ point _ _ =>
      cases e with
      | loop s exit kind =>
          exact (push_settles incoming point.nodeId _ _ _ point.stepId
            b).andThen (claim_push_settles [point] exit.id rank _ _ _ _ _)
      | step | foreach | sleep | sleepUntil | waitForEvent =>
          exact push_settles incoming point.nodeId _ _ _ _ b
      | parallel branches => cases he
      | conditional branches conditions => cases he
  | guards => cases he
  | fork => cases he

/- The induction follows the branches of an entry.  The ids of an entrance are
claimed before the drawing of its entry begins, so they stand in front of
whatever else is pending then. -/
mutual

theorem drawEntry_settles (rank : Nat) :
    (e : Entry) → (incoming : Frontier) → (entrance : Entrance) →
      (b : Builder) → Fits rank e entrance → Aligned e →
      Settles incoming entrance.points b
        (drawEntry rank incoming e entrance b)
  | .parallel branches, incoming, _, b, .fork hheads, haligned => by
      simp only [Aligned] at haligned
      exact drawBranches_settles rank branches incoming _ b hheads haligned
  | .conditional branches conditions, incoming, _, b, .guards hguards,
      haligned => by
      simp only [Aligned] at haligned
      exact drawGuarded_settles rank branches conditions incoming 0 _ b
        hguards haligned.1 haligned.2
  | .step _, _, _, _, hfits, _ | .foreach _ _, _, _, _, hfits, _
  | .sleep _ _, _, _, _, hfits, _ | .sleepUntil _ _, _, _, _, hfits, _
  | .waitForEvent _ _ _, _, _, _, hfits, _ | .loop _ _ _, _, _, _, hfits, _ =>
      drawSingle_settles rfl hfits
termination_by structural e => e

theorem drawFlow_settles (rank : Nat) :
    (flow : List Entry) → (incoming : Frontier) → (head : Option Entrance) →
      (b : Builder) → FitsStart rank flow head → FlowAligned flow →
      Settles incoming (pointsOfHead head) b
        (drawFlow rank incoming head flow b)
  | [], incoming, none, b, _, _ => Settles.unchanged incoming b
  | e :: flow, incoming, none, b, _, haligned => by
      simp only [FlowAligned] at haligned
      refine .of_claims (claimEntrance_claims rank e b) (.of_connectAll ?_)
      exact (drawEntry_settles rank e incoming _ _
        (claimEntrance_fits rank e b) haligned.1).andThen
        (drawFlow_settles (rank + 1) flow _ none _ trivial haligned.2)
  | e :: flow, incoming, some entrance, b, hfits, haligned => by
      simp only [FlowAligned] at haligned
      refine .of_connectAll ?_
      exact (drawEntry_settles rank e incoming entrance _ hfits
        haligned.1).andThen
        (drawFlow_settles (rank + 1) flow _ none _ trivial haligned.2)
termination_by structural flow => flow

theorem drawBranches_settles (rank : Nat) :
    (branches : List (List Entry)) → (incoming : Frontier) →
      (heads : List (Option Entrance)) → (b : Builder) →
      FitsHeads rank branches heads → BranchesAligned branches →
      Settles incoming (pointsOfHeads heads) b
        (drawBranches rank incoming branches heads b)
  | [], incoming, _, b, .nil, _ => Settles.nothing incoming b
  | [] :: branches, incoming, _, b, .empty hrest, haligned => by
      simp only [BranchesAligned] at haligned
      exact (Settles.nothing incoming b).append
        (drawBranches_settles rank branches incoming _ b hrest haligned.2)
  | (e :: flow) :: branches, incoming, _, b, .cons hhead hrest,
      haligned => by
      simp only [BranchesAligned] at haligned
      exact (drawFlow_settles rank (e :: flow) incoming (some _) b hhead
        haligned.1).append
        (drawBranches_settles rank branches incoming _ _ hrest haligned.2)
termination_by structural branches => branches

theorem drawGuarded_settles (rank : Nat) :
    (branches : List (List Entry)) → (conditions : List Condition) →
      (incoming : Frontier) → (index : Nat) → (points : List Tail) →
      (b : Builder) → FitsGuards rank index branches points →
      branches.length = conditions.length → BranchesAligned branches →
      Settles incoming points b
        (drawGuarded rank incoming branches conditions points b)
  | [], _, incoming, _, _, b, .nil, _, _ => Settles.nothing incoming b
  | [] :: branches, condition :: conditions, incoming, index, point :: points,
      b, .cons _ _ hrest, hlength, haligned => by
      simp only [BranchesAligned] at haligned
      exact ((push_settles incoming point.nodeId _ _ _ _ b).andThen
        (.nothing [guardTail incoming point] _)).append
        (drawGuarded_settles rank branches conditions incoming (index + 1)
          points _ hrest (by simpa using hlength) haligned.2)
  | (e :: flow) :: branches, condition :: conditions, incoming, index,
      point :: points, b, .cons _ _ hrest, hlength, haligned => by
      simp only [BranchesAligned] at haligned
      exact ((push_settles incoming point.nodeId _ _ _ _ b).andThen
        (drawFlow_settles rank (e :: flow) [guardTail incoming point] none _
          trivial haligned.1)).append
        (drawGuarded_settles rank branches conditions incoming (index + 1)
          points _ hrest (by simpa using hlength) haligned.2)
  | _ :: _, [], _, _, _, _, _, hlength, _ => by simp at hlength
termination_by structural branches => branches

end

end Flowchart.Builder

namespace Flowchart.Diagram

/-- The builder behind the diagram of a flow has no id left without a node. -/
theorem sound_drawFlow
    {style : EdgeStyle} {flow : Flow} (haligned : Entry.FlowAligned flow) :
    ((Builder.empty style).drawFlow 0 [] none flow).2.Sound [] := by
  have hsettles := Builder.drawFlow_settles 0 flow [] none
    (Builder.empty style) trivial haligned
  exact hsettles.sound [] (Builder.sound_empty style) (List.nil_subset _)

end Flowchart.Diagram
