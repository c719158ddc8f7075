import Flowchart.Proofs.Flow.Sound
import Flowchart.Proofs.Metadata

/-!
# What the edges of flows remember

The entry points of an entry are joined to what comes before ahead of time and
more than once, but each time under the ids that their nodes hold.
-/

namespace Flowchart.Builder

open Entrance Entry

variable {nodes : List Node}

/-! ## Entries with one entry point -/

theorem nodeKind_isDeclared (e : Entry) (id : String) (payload : Payload) :
    Node.IsDeclared ⟨id, e.nodeKind, payload⟩ := by
  have hstep : ∀ s : Step Entry,
      s.nodeKind = .standard ∨ s.nodeKind = .nested := by
    intro s
    unfold Step.nodeKind
    split
    · exact Or.inr rfl
    · exact Or.inl rfl
  cases e with
  | step s | «foreach» s _ | loop s _ _ => exact hstep s
  | _ => exact Or.inl rfl

theorem payload_label
    {e : Entry} {declared : String} (he : e.declaredId? = some declared) :
    e.payload.label = declared := by
  cases e <;> cases he <;> rfl

theorem pushPoint_agrees
    {e : Entry} {point : Tail} (he : e.declaredId? = some point.stepId)
    (incoming : Frontier) (b : Builder) :
    Agrees nodes incoming [point] b
      ([point], b.pushPoint incoming point e.nodeKind e.payload) := by
  have hdeclared := nodeKind_isDeclared e point.nodeId e.payload
  have hlabel := payload_label he
  refine push_agrees ⟨?_, ?_⟩ ?_
  · rw [Node.enteredAs?_of_isDeclared hdeclared, hlabel]
  · intro hkind
    rw [Node.IsDeclared, hkind] at hdeclared
    simp at hdeclared
  · rw [Node.leftAs_of_isDeclared hdeclared, hlabel]

/-- The node of an exit condition is entered from the node of its step, and left
under the id of that step. -/
theorem pushExit_agrees
    (b : Builder) (rank : Nat) (point : Tail) (exit : ExitCondition)
    (kind : LoopKind) :
    Agrees nodes [point] [] b (b.pushExit rank point exit kind) :=
  .of_claims (claims_claim b exit.id rank point.stepId)
    (push_agrees ⟨rfl, fun _ => rfl⟩ rfl)

theorem pushGuard_agrees
    (b : Builder) (incoming : Frontier) (point : Tail)
    (condition : Condition) :
    Agrees nodes incoming [point] b
      ([guardTail incoming point], b.pushGuard incoming point condition) :=
  push_agrees ⟨rfl, fun _ => rfl⟩ rfl

theorem drawSingle_agrees
    {rank : Nat} {incoming : Frontier} {e : Entry} {entrance : Entrance}
    {b : Builder} {declared : String} (he : e.declaredId? = some declared)
    (hfits : Fits rank e entrance) :
    Agrees nodes incoming entrance.points b
      (drawEntry rank incoming e entrance b) := by
  cases hfits with
  | @node _ point hdeclared _ =>
      have hpoint : Agrees nodes incoming [point] b
          ([point], b.pushPoint incoming point e.nodeKind e.payload) :=
        pushPoint_agrees hdeclared incoming b
      cases e with
      | loop s exit kind =>
          exact hpoint.andThen (pushExit_agrees _ rank point exit kind)
      | step | foreach | sleep | sleepUntil | waitForEvent => exact hpoint
      | parallel branches => cases he
      | conditional branches conditions => cases he
  | guards => cases he
  | fork => cases he

/-! ## Entries and flows -/

/- The induction follows the branches of an entry, as the drawing does. -/
mutual

theorem drawEntry_agrees (rank : Nat) :
    (e : Entry) → (incoming : Frontier) → (entrance : Entrance) →
      (b : Builder) → Fits rank e entrance → Aligned e →
      Agrees nodes incoming entrance.points b
        (drawEntry rank incoming e entrance b)
  | .parallel branches, incoming, _, b, .fork hheads, haligned => by
      simp only [Aligned] at haligned
      exact drawBranches_agrees rank branches incoming _ b hheads haligned
  | .conditional branches conditions, incoming, _, b, .guards hguards,
      haligned => by
      simp only [Aligned] at haligned
      exact drawGuarded_agrees rank branches conditions incoming 0 _ b hguards
        haligned.1 haligned.2
  | .step _, _, _, _, hfits, _ | .foreach _ _, _, _, _, hfits, _
  | .sleep _ _, _, _, _, hfits, _ | .sleepUntil _ _, _, _, _, hfits, _
  | .waitForEvent _ _ _, _, _, _, hfits, _ | .loop _ _ _, _, _, _, hfits, _ =>
      drawSingle_agrees rfl hfits
termination_by structural e => e

theorem drawFlow_agrees (rank : Nat) :
    (flow : List Entry) → (incoming : Frontier) → (head : Option Entrance) →
      (b : Builder) → FitsStart rank flow head → FlowAligned flow →
      Agrees nodes incoming (pointsOfHead head) b
        (drawFlow rank incoming head flow b)
  | [], incoming, none, b, _, _ => Agrees.unchanged incoming b
  | e :: flow, incoming, none, b, _, haligned => by
      simp only [FlowAligned] at haligned
      refine .of_claims (claimEntrance_claims rank e b) (.of_connectAll ?_)
      exact (drawEntry_agrees rank e incoming _ _
        (claimEntrance_fits rank e b) haligned.1).andThen
        (drawFlow_agrees (rank + 1) flow _ none _ trivial haligned.2)
  | e :: flow, incoming, some entrance, b, hfits, haligned => by
      simp only [FlowAligned] at haligned
      refine .of_connectAll ?_
      exact (drawEntry_agrees rank e incoming entrance _ hfits
        haligned.1).andThen
        (drawFlow_agrees (rank + 1) flow _ none _ trivial haligned.2)
termination_by structural flow => flow

theorem drawBranches_agrees (rank : Nat) :
    (branches : List (List Entry)) → (incoming : Frontier) →
      (heads : List (Option Entrance)) → (b : Builder) →
      FitsHeads rank branches heads → BranchesAligned branches →
      Agrees nodes incoming (pointsOfHeads heads) b
        (drawBranches rank incoming branches heads b)
  | [], incoming, _, b, .nil, _ => Agrees.nothing incoming b
  | [] :: branches, incoming, _, b, .empty hrest, haligned => by
      simp only [BranchesAligned] at haligned
      exact (Agrees.nothing incoming b).append
        (drawBranches_agrees rank branches incoming _ b hrest haligned.2)
  | (e :: flow) :: branches, incoming, _, b, .cons hhead hrest,
      haligned => by
      simp only [BranchesAligned] at haligned
      exact (drawFlow_agrees rank (e :: flow) incoming (some _) b hhead
        haligned.1).append
        (drawBranches_agrees rank branches incoming _ _ hrest haligned.2)
termination_by structural branches => branches

theorem drawGuarded_agrees (rank : Nat) :
    (branches : List (List Entry)) → (conditions : List Condition) →
      (incoming : Frontier) → (index : Nat) → (points : List Tail) →
      (b : Builder) → FitsGuards rank index branches points →
      branches.length = conditions.length → BranchesAligned branches →
      Agrees nodes incoming points b
        (drawGuarded rank incoming branches conditions points b)
  | [], _, incoming, _, _, b, .nil, _, _ => Agrees.nothing incoming b
  | [] :: branches, condition :: conditions, incoming, index, point :: points,
      b, .cons _ _ hrest, hlength, haligned => by
      simp only [BranchesAligned] at haligned
      exact ((pushGuard_agrees b incoming point condition).andThen
        (.nothing _ _)).append
        (drawGuarded_agrees rank branches conditions incoming (index + 1)
          points _ hrest (by simpa using hlength) haligned.2)
  | (e :: flow) :: branches, condition :: conditions, incoming, index,
      point :: points, b, .cons _ _ hrest, hlength, haligned => by
      simp only [BranchesAligned] at haligned
      exact ((pushGuard_agrees b incoming point condition).andThen
        (drawFlow_agrees rank (e :: flow) [guardTail incoming point] none _
          trivial haligned.1)).append
        (drawGuarded_agrees rank branches conditions incoming (index + 1)
          points _ hrest (by simpa using hlength) haligned.2)
  | _ :: _, [], _, _, _, _, _, hlength, _ => by simp at hlength
termination_by structural branches => branches

end

end Flowchart.Builder

namespace Flowchart.Diagram

theorem ofFlow_keepsDeclaredIds
    {style : EdgeStyle} {flow : Flow} {diagram : Diagram}
    (h : ofFlow style flow = .ok diagram) : diagram.KeepsDeclaredIds := by
  obtain ⟨haligned, rfl⟩ := ofFlow_eq_ok_iff.mp h
  have hsound : ((Builder.empty style).drawFlow 0 [] none
      flow.foldElse).2.Sound [] := sound_drawFlow haligned
  have hfaithful := (Builder.drawFlow_agrees 0 flow.foldElse [] none
    (Builder.empty style) trivial haligned).faithful (List.prefix_refl _)
    (by simp) (Builder.faithful_empty _ style)
  exact hfaithful.keepsDeclaredIds hsound.nodeIds_nodup

end Flowchart.Diagram
