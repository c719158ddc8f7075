import Flowchart.Proofs.Flow.Entrance
import Flowchart.Proofs.Flow.Aligned
import Flowchart.Proofs.Outline

/-!
# Outlines of flows

The nodes of a flow are numbered as the flow lists what they stand for: the
nodes of an entry before those of the next entry, and the condition node of a
branch before the nodes of the branch.  Every entry has nodes by which it is
entered and nodes by which it is left, and the arcs follow from these: from the
exits of an entry to the heads of the entry behind it, from the step of a loop
to its exit condition, and from the condition node of a branch to the heads of
the first entry of the branch.
-/

namespace Flowchart

/-! ## Cards -/

namespace Card

/-- The node of a step. -/
def ofStep (rank : Nat) (step : Step Entry) : Card where
  kind := step.nodeKind
  label := step.id
  description := step.description
  stepGraph := step.nested?
  conditions := []
  baseId := step.id
  rank := rank

/-- The node of a pause. -/
def pause (rank : Nat) (id : String) (description : Option String) : Card :=
  ⟨.standard, id, description, none, [], id, rank⟩

/-- The node of an exit condition. -/
def exit (rank : Nat) (exit : ExitCondition) (kind : LoopKind) : Card :=
  ⟨.condition, exit.id, none, none, [.raw kind.conditionKind exit.expr],
    exit.id, rank⟩

/-- The condition node of a branch. -/
def guard (rank index : Nat) (branch : List Entry) (condition : Condition) :
    Card :=
  ⟨.condition, condition.kind.word, none, none, [condition],
    guardBaseId rank index branch, rank⟩

end Card

namespace Entry

mutual

/-- What the nodes of an entry show. -/
def cards (rank : Nat) : Entry → List Card
  | .step s | .foreach s _ => [.ofStep rank s]
  | .loop s exit kind => [.ofStep rank s, .exit rank exit kind]
  | .sleep id _ | .sleepUntil id _ => [.pause rank id none]
  | .waitForEvent id _ description => [.pause rank id description]
  | .parallel branches => branchesCards rank branches
  | .conditional branches conditions => guardedCards rank 0 branches conditions
termination_by structural e => e

/-- What the nodes of a flow show. -/
def flowCards (rank : Nat) : List Entry → List Card
  | [] => []
  | e :: flow => cards rank e ++ flowCards (rank + 1) flow
termination_by structural flow => flow

/-- What the nodes of several branches show. -/
def branchesCards (rank : Nat) : List (List Entry) → List Card
  | [] => []
  | branch :: branches => flowCards rank branch ++ branchesCards rank branches
termination_by structural branches => branches

/-- What the nodes of several branches show, each with its condition node. -/
def guardedCards (rank index : Nat) :
    List (List Entry) → List Condition → List Card
  | branch :: branches, condition :: conditions =>
    .guard rank index branch condition ::
      (flowCards rank branch ++
        guardedCards rank (index + 1) branches conditions)
  | _, _ => []
termination_by structural branches => branches

end

/-! ## Numbers of nodes -/

mutual

/-- How many nodes an entry has. -/
def nodeCount : Entry → Nat
  | .parallel branches => branchesNodeCount 0 branches
  | .conditional branches _ => branchesNodeCount 1 branches
  | .loop _ _ _ => 2
  | _ => 1
termination_by structural e => e

/-- How many nodes a flow has. -/
def flowNodeCount : List Entry → Nat
  | [] => 0
  | e :: flow => nodeCount e + flowNodeCount flow
termination_by structural flow => flow

/-- How many nodes several branches have, with `lead` nodes in front of
each. -/
def branchesNodeCount (lead : Nat) : List (List Entry) → Nat
  | [] => 0
  | branch :: branches =>
    lead + flowNodeCount branch + branchesNodeCount lead branches
termination_by structural branches => branches

end

/-- The numbers of the condition nodes of branches. -/
def guardHeads (n : Nat) : List (List Entry) → List Nat
  | [] => []
  | branch :: branches =>
    n :: guardHeads (n + 1 + flowNodeCount branch) branches

mutual

/-- The nodes by which an entry is entered, if its nodes are numbered from
`n` on. -/
def heads (n : Nat) : Entry → List Nat
  | .parallel branches => branchesHeads n branches
  | .conditional branches _ => guardHeads n branches
  | _ => [n]
termination_by structural e => e

/-- The heads of the first entry of a flow. -/
def flowHeads (n : Nat) : List Entry → List Nat
  | [] => []
  | e :: _ => heads n e
termination_by structural flow => flow

/-- The heads of the first entries of several branches. -/
def branchesHeads (n : Nat) : List (List Entry) → List Nat
  | [] => []
  | branch :: branches =>
    flowHeads n branch ++ branchesHeads (n + flowNodeCount branch) branches
termination_by structural branches => branches

end

mutual

/-- The nodes by which an entry is left. -/
def exits (n : Nat) : Entry → List Nat
  | .parallel branches => branchesExits 0 n branches
  | .conditional branches _ => branchesExits 1 n branches
  | .loop _ _ _ => [n + 1]
  | _ => [n]
termination_by structural e => e

/-- The exits of the last entry of a flow, or those before it if it has no
entries. -/
def flowExits (before : List Nat) (n : Nat) : List Entry → List Nat
  | [] => before
  | e :: flow => flowExits (exits n e) (n + nodeCount e) flow
termination_by structural flow => flow

/-- The exits of the last entries of several branches, with `lead` nodes in
front of each branch. -/
def branchesExits (lead n : Nat) : List (List Entry) → List Nat
  | [] => []
  | branch :: branches =>
    flowExits [] (n + lead) branch ++
      branchesExits lead (n + lead + flowNodeCount branch) branches
termination_by structural branches => branches

end

mutual

/-- The arcs between the nodes of an entry. -/
def arcs (n : Nat) : Entry → List (Nat × Nat)
  | .parallel branches => branchesArcs n branches
  | .conditional branches _ => guardedArcs n branches
  | .loop _ _ _ => [(n, n + 1)]
  | _ => []
termination_by structural e => e

/-- The arcs between the nodes of a flow. -/
def flowArcs (n : Nat) : List Entry → List (Nat × Nat)
  | [] => []
  | e :: flow =>
    arcs n e ++ exits n e ×ˢ flowHeads (n + nodeCount e) flow ++
      flowArcs (n + nodeCount e) flow
termination_by structural flow => flow

/-- The arcs between the nodes of several branches. -/
def branchesArcs (n : Nat) : List (List Entry) → List (Nat × Nat)
  | [] => []
  | branch :: branches =>
    flowArcs n branch ++ branchesArcs (n + flowNodeCount branch) branches
termination_by structural branches => branches

/-- The arcs between the nodes of several branches, each behind its condition
node. -/
def guardedArcs (n : Nat) : List (List Entry) → List (Nat × Nat)
  | [] => []
  | branch :: branches =>
    [n] ×ˢ flowHeads (n + 1) branch ++ flowArcs (n + 1) branch ++
      guardedArcs (n + 1 + flowNodeCount branch) branches
termination_by structural branches => branches

end

end Entry

/-- The outline of a flow. -/
def Outline.ofFlow (flow : Flow) : Outline :=
  ⟨Entry.flowCards 0 flow, Entry.flowArcs 0 flow⟩

namespace Entry

open Outline

/-! ## The cards are as many as the nodes -/

mutual

theorem cards_length (rank : Nat) :
    (e : Entry) → Aligned e → (cards rank e).length = nodeCount e
  | .step _, _ | .foreach _ _, _ | .loop _ _ _, _ | .sleep _ _, _
  | .sleepUntil _ _, _ | .waitForEvent _ _ _, _ => rfl
  | .parallel branches, haligned => by
      simp only [Aligned] at haligned
      exact branchesCards_length rank branches haligned
  | .conditional branches conditions, haligned => by
      simp only [Aligned] at haligned
      exact guardedCards_length rank 0 branches conditions haligned.1
        haligned.2
termination_by structural e => e

theorem flowCards_length (rank : Nat) :
    (flow : List Entry) → FlowAligned flow →
      (flowCards rank flow).length = flowNodeCount flow
  | [], _ => rfl
  | e :: flow, haligned => by
      simp only [FlowAligned] at haligned
      rw [flowCards, flowNodeCount, List.length_append,
        cards_length rank e haligned.1,
        flowCards_length (rank + 1) flow haligned.2]
termination_by structural flow => flow

theorem branchesCards_length (rank : Nat) :
    (branches : List (List Entry)) → BranchesAligned branches →
      (branchesCards rank branches).length = branchesNodeCount 0 branches
  | [], _ => rfl
  | branch :: branches, haligned => by
      simp only [BranchesAligned] at haligned
      rw [branchesCards, branchesNodeCount, List.length_append,
        flowCards_length rank branch haligned.1,
        branchesCards_length rank branches haligned.2, Nat.zero_add]
termination_by structural branches => branches

theorem guardedCards_length (rank index : Nat) :
    (branches : List (List Entry)) → (conditions : List Condition) →
      branches.length = conditions.length → BranchesAligned branches →
      (guardedCards rank index branches conditions).length =
        branchesNodeCount 1 branches
  | [], _, _, _ => rfl
  | _ :: _, [], hlength, _ => by simp at hlength
  | branch :: branches, condition :: conditions, hlength, haligned => by
      simp only [BranchesAligned] at haligned
      rw [guardedCards, branchesNodeCount, List.length_cons,
        List.length_append, flowCards_length rank branch haligned.1,
        guardedCards_length rank (index + 1) branches conditions
          (by simpa using hlength) haligned.2]
      omega
termination_by structural branches => branches

end

/-! ## Arcs lead to later nodes -/

/- An entry numbered from `n` on keeps to the numbers below the one that the
next entry starts with.  The exits of a flow may also be those before it, so
their lower bound is not the number of the flow. -/
mutual

theorem entry_bounds (n : Nat) :
    (e : Entry) →
      Within n (n + nodeCount e) (heads n e) ∧
      Within n (n + nodeCount e) (exits n e) ∧
      Ascending n (n + nodeCount e) (arcs n e)
  | .step _ | .foreach _ _ | .sleep _ _ | .sleepUntil _ _
  | .waitForEvent _ _ _ => by
      simp [heads, exits, arcs, nodeCount, Within, Ascending]
  | .loop _ _ _ => by
      simp [heads, exits, arcs, nodeCount, Within, Ascending]
  | .parallel branches => branches_bounds n branches
  | .conditional branches _ => guarded_bounds n branches
termination_by structural e => e

theorem flow_bounds (n : Nat) :
    (flow : List Entry) →
      Within n (n + flowNodeCount flow) (flowHeads n flow) ∧
      (∀ low before, low ≤ n → Within low n before →
        Within low (n + flowNodeCount flow) (flowExits before n flow)) ∧
      Ascending n (n + flowNodeCount flow) (flowArcs n flow)
  | [] => by
      refine ⟨within_nil _ _, ?_, ascending_nil _ _⟩
      intro low before _ hbefore
      exact hbefore
  | e :: flow => by
      obtain ⟨hheads, hexits, harcs⟩ := entry_bounds n e
      obtain ⟨hnext, hlast, hlater⟩ := flow_bounds (n + nodeCount e) flow
      simp only [flowNodeCount, flowHeads, flowExits, flowArcs, ← Nat.add_assoc]
      refine ⟨hheads.widen le_rfl (by omega), ?_, ?_⟩
      · intro low before hlow _
        exact hlast low _ (by omega) (hexits.widen hlow le_rfl)
      · exact ((harcs.widen le_rfl (by omega)).append
          (ascending_product hexits hnext)).append
            (hlater.widen (by omega) le_rfl)
termination_by structural flow => flow

theorem branches_bounds (n : Nat) :
    (branches : List (List Entry)) →
      Within n (n + branchesNodeCount 0 branches) (branchesHeads n branches) ∧
      Within n (n + branchesNodeCount 0 branches)
        (branchesExits 0 n branches) ∧
      Ascending n (n + branchesNodeCount 0 branches) (branchesArcs n branches)
  | [] => ⟨within_nil _ _, within_nil _ _, ascending_nil _ _⟩
  | branch :: branches => by
      obtain ⟨hheads, hexits, harcs⟩ := flow_bounds n branch
      obtain ⟨hheads', hexits', harcs'⟩ :=
        branches_bounds (n + flowNodeCount branch) branches
      have hlast := hexits n [] le_rfl (within_nil _ _)
      simp only [branchesNodeCount, branchesHeads, branchesExits, branchesArcs,
        Nat.zero_add, Nat.add_zero, ← Nat.add_assoc]
      refine ⟨?_, ?_, ?_⟩
      · exact (hheads.widen le_rfl (by omega)).append
          (hheads'.widen (by omega) le_rfl)
      · exact (hlast.widen le_rfl (by omega)).append
          (hexits'.widen (by omega) le_rfl)
      · exact (harcs.widen le_rfl (by omega)).append
          (harcs'.widen (by omega) le_rfl)
termination_by structural branches => branches

theorem guarded_bounds (n : Nat) :
    (branches : List (List Entry)) →
      Within n (n + branchesNodeCount 1 branches) (guardHeads n branches) ∧
      Within n (n + branchesNodeCount 1 branches)
        (branchesExits 1 n branches) ∧
      Ascending n (n + branchesNodeCount 1 branches) (guardedArcs n branches)
  | [] => ⟨within_nil _ _, within_nil _ _, ascending_nil _ _⟩
  | branch :: branches => by
      obtain ⟨hheads, hexits, harcs⟩ := flow_bounds (n + 1) branch
      obtain ⟨hguards', hexits', harcs'⟩ :=
        guarded_bounds (n + 1 + flowNodeCount branch) branches
      have hlast := hexits (n + 1) [] le_rfl (within_nil _ _)
      have hguard : Within n (n + 1) [n] := by simp [Within]
      simp only [branchesNodeCount, guardHeads, branchesExits, guardedArcs,
        ← Nat.add_assoc]
      refine ⟨?_, ?_, ?_⟩
      · exact (hguard.widen le_rfl (by omega)).append
          (hguards'.widen (by omega) le_rfl)
      · exact (hlast.widen (by omega) (by omega)).append
          (hexits'.widen (by omega) le_rfl)
      · exact (((ascending_product hguard hheads).widen le_rfl
          (by omega)).append (harcs.widen (by omega) (by omega))).append
            (harcs'.widen (by omega) le_rfl)
termination_by structural branches => branches

end

end Entry

end Flowchart
