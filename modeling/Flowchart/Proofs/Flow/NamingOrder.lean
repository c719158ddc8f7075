import Flowchart.Proofs.Flow.Outline

/-!
# The order in which the nodes of a flow are named

The nodes of an entry are drawn where the flow lists them, but those by which
the entry is entered get their ids first.  For a parallel entry these are the
first nodes of all branches, for a conditional entry the condition nodes; they
have their ids before any other node of the branches has.
-/

namespace Flowchart

/-! ## Slots -/

/-- A node that is to be drawn: its number, whether the document declares the id
that it asks for, and what it shows. -/
structure Slot where
  number : Nat
  declared : Bool
  card : Card

/-- The id that the document declares for the node.  Condition nodes of branches
have none. -/
def Slot.declaredId? (slot : Slot) : Option String :=
  if slot.declared then some slot.card.baseId else none

theorem Slot.declaredId?_eq_some_iff {slot : Slot} {declared : String} :
    slot.declaredId? = some declared ↔
      slot.declared = true ∧ slot.card.baseId = declared := by
  simp [declaredId?]

namespace Entry

mutual

/-- The nodes of an entry in the order in which they are drawn, if they are
numbered from `n` on. -/
def slots (n rank : Nat) : Entry → List Slot
  | .parallel branches => branchesSlots n rank branches
  | .conditional branches conditions =>
    guardedSlots n rank 0 branches conditions
  | .loop s exit kind =>
    [⟨n, true, .ofStep rank s⟩, ⟨n + 1, true, .exit rank exit kind⟩]
  | e => (cards rank e).map fun card => ⟨n, true, card⟩
termination_by structural e => e

/-- The nodes of a flow. -/
def flowSlots (n rank : Nat) : List Entry → List Slot
  | [] => []
  | e :: flow => slots n rank e ++ flowSlots (n + nodeCount e) (rank + 1) flow
termination_by structural flow => flow

/-- The nodes of several branches. -/
def branchesSlots (n rank : Nat) : List (List Entry) → List Slot
  | [] => []
  | branch :: branches =>
    flowSlots n rank branch ++
      branchesSlots (n + flowNodeCount branch) rank branches
termination_by structural branches => branches

/-- The nodes of several branches, each with its condition node. -/
def guardedSlots (n rank index : Nat) :
    List (List Entry) → List Condition → List Slot
  | branch :: branches, condition :: conditions =>
    ⟨n, false, .guard rank index branch condition⟩ ::
      (flowSlots (n + 1) rank branch ++
        guardedSlots (n + 1 + flowNodeCount branch) rank (index + 1) branches
          conditions)
  | _, _ => []
termination_by structural branches => branches

end

/-! ## Heads first -/

/-- The condition nodes of branches. -/
def guardHeadSlots (n rank index : Nat) :
    List (List Entry) → List Condition → List Slot
  | branch :: branches, condition :: conditions =>
    ⟨n, false, .guard rank index branch condition⟩ ::
      guardHeadSlots (n + 1 + flowNodeCount branch) rank (index + 1) branches
        conditions
  | _, _ => []

mutual

/-- The nodes by which an entry is entered, in the order in which they are
named. -/
def headSlots (n rank : Nat) : Entry → List Slot
  | .parallel branches => branchesHeadSlots n rank branches
  | .conditional branches conditions =>
    guardHeadSlots n rank 0 branches conditions
  | .loop s _ _ => [⟨n, true, .ofStep rank s⟩]
  | e => (cards rank e).map fun card => ⟨n, true, card⟩
termination_by structural e => e

/-- The heads of the first entry of a flow. -/
def flowHeadSlots (n rank : Nat) : List Entry → List Slot
  | [] => []
  | e :: _ => headSlots n rank e
termination_by structural flow => flow

/-- The heads of the first entries of several branches. -/
def branchesHeadSlots (n rank : Nat) : List (List Entry) → List Slot
  | [] => []
  | branch :: branches =>
    flowHeadSlots n rank branch ++
      branchesHeadSlots (n + flowNodeCount branch) rank branches
termination_by structural branches => branches

end

mutual

/-- The other nodes of an entry, in the order in which they are named. -/
def innerSlots (n rank : Nat) : Entry → List Slot
  | .parallel branches => branchesInnerSlots n rank branches
  | .conditional branches conditions =>
    guardedInnerSlots n rank branches conditions
  | .loop _ exit kind => [⟨n + 1, true, .exit rank exit kind⟩]
  | _ => []
termination_by structural e => e

/-- The nodes of a flow apart from the heads of its first entry. -/
def flowInnerSlots (n rank : Nat) : List Entry → List Slot
  | [] => []
  | e :: flow =>
    innerSlots n rank e ++
      (flowHeadSlots (n + nodeCount e) (rank + 1) flow ++
        flowInnerSlots (n + nodeCount e) (rank + 1) flow)
termination_by structural flow => flow

/-- The nodes of several branches apart from the heads of the first entries. -/
def branchesInnerSlots (n rank : Nat) : List (List Entry) → List Slot
  | [] => []
  | branch :: branches =>
    flowInnerSlots n rank branch ++
      branchesInnerSlots (n + flowNodeCount branch) rank branches
termination_by structural branches => branches

/-- The nodes of several branches apart from the condition nodes. -/
def guardedInnerSlots (n rank : Nat) :
    List (List Entry) → List Condition → List Slot
  | branch :: branches, _ :: conditions =>
    flowHeadSlots (n + 1) rank branch ++ flowInnerSlots (n + 1) rank branch ++
      guardedInnerSlots (n + 1 + flowNodeCount branch) rank branches conditions
  | _, _ => []
termination_by structural branches => branches

end

/-- The nodes of an entry in the order in which they are named. -/
def namingOrder (n rank : Nat) (e : Entry) : List Slot :=
  headSlots n rank e ++ innerSlots n rank e

/-- The nodes of a flow in the order in which they are named. -/
def flowNamingOrder (n rank : Nat) (flow : List Entry) : List Slot :=
  flowHeadSlots n rank flow ++ flowInnerSlots n rank flow

/-! ## Every node is named once -/

theorem flowNamingOrder_cons
    (n rank : Nat) (e : Entry) (flow : List Entry) :
    flowNamingOrder n rank (e :: flow) =
      namingOrder n rank e ++
        flowNamingOrder (n + nodeCount e) (rank + 1) flow := by
  simp [flowNamingOrder, namingOrder, flowHeadSlots, flowInnerSlots]

/-- It does not matter whether two lists of heads come together or each before
what belongs to it. -/
theorem perm_interleave {α : Type} (heads heads' inner inner' : List α) :
    ((heads ++ heads') ++ (inner ++ inner')).Perm
      ((heads ++ inner) ++ (heads' ++ inner')) := by
  simp only [List.append_assoc]
  exact (List.perm_append_comm_assoc heads' inner inner').append_left heads

mutual

theorem namingOrder_perm (n rank : Nat) :
    (e : Entry) → (namingOrder n rank e).Perm (slots n rank e)
  | .parallel branches => branches_perm n rank branches
  | .conditional branches conditions =>
      guarded_perm n rank 0 branches conditions
  | .loop _ _ _ => .refl _
  | .step _ | .foreach _ _ | .sleep _ _ | .sleepUntil _ _
  | .waitForEvent _ _ _ => .refl _
termination_by structural e => e

theorem flowNamingOrder_perm (n rank : Nat) :
    (flow : List Entry) →
      (flowNamingOrder n rank flow).Perm (flowSlots n rank flow)
  | [] => .refl _
  | e :: flow => by
      rw [flowNamingOrder_cons]
      exact (namingOrder_perm n rank e).append
        (flowNamingOrder_perm (n + nodeCount e) (rank + 1) flow)
termination_by structural flow => flow

theorem branches_perm (n rank : Nat) :
    (branches : List (List Entry)) →
      (branchesHeadSlots n rank branches ++
        branchesInnerSlots n rank branches).Perm
        (branchesSlots n rank branches)
  | [] => .refl _
  | branch :: branches => by
      rw [branchesHeadSlots, branchesInnerSlots, branchesSlots]
      exact (perm_interleave _ _ _ _).trans
        ((flowNamingOrder_perm n rank branch).append
          (branches_perm (n + flowNodeCount branch) rank branches))
termination_by structural branches => branches

theorem guarded_perm (n rank index : Nat) :
    (branches : List (List Entry)) → (conditions : List Condition) →
      (guardHeadSlots n rank index branches conditions ++
        guardedInnerSlots n rank branches conditions).Perm
        (guardedSlots n rank index branches conditions)
  | [], _ => .refl _
  | _ :: _, [] => .refl _
  | branch :: branches, condition :: conditions => by
      rw [guardHeadSlots, guardedInnerSlots, guardedSlots, List.cons_append]
      refine List.Perm.cons _ ?_
      refine (perm_interleave [] _ _ _).trans ?_
      exact (flowNamingOrder_perm (n + 1) rank branch).append
        (guarded_perm (n + 1 + flowNodeCount branch) rank (index + 1) branches
          conditions)
termination_by structural branches => branches

end

/-! ## Numbers and cards -/

mutual

theorem slots_card (n rank : Nat) :
    (e : Entry) → (slots n rank e).map Slot.card = cards rank e
  | .parallel branches => branchesSlots_card n rank branches
  | .conditional branches conditions =>
      guardedSlots_card n rank 0 branches conditions
  | .step _ | .foreach _ _ | .loop _ _ _ | .sleep _ _ | .sleepUntil _ _
  | .waitForEvent _ _ _ => rfl
termination_by structural e => e

theorem flowSlots_card (n rank : Nat) :
    (flow : List Entry) →
      (flowSlots n rank flow).map Slot.card = flowCards rank flow
  | [] => rfl
  | e :: flow => by
      rw [flowSlots, flowCards, List.map_append, slots_card n rank e,
        flowSlots_card (n + nodeCount e) (rank + 1) flow]
termination_by structural flow => flow

theorem branchesSlots_card (n rank : Nat) :
    (branches : List (List Entry)) →
      (branchesSlots n rank branches).map Slot.card =
        branchesCards rank branches
  | [] => rfl
  | branch :: branches => by
      rw [branchesSlots, branchesCards, List.map_append,
        flowSlots_card n rank branch,
        branchesSlots_card (n + flowNodeCount branch) rank branches]
termination_by structural branches => branches

theorem guardedSlots_card (n rank index : Nat) :
    (branches : List (List Entry)) → (conditions : List Condition) →
      (guardedSlots n rank index branches conditions).map Slot.card =
        guardedCards rank index branches conditions
  | [], _ => rfl
  | _ :: _, [] => rfl
  | branch :: branches, condition :: conditions => by
      rw [guardedSlots, guardedCards, List.map_cons, List.map_append,
        flowSlots_card (n + 1) rank branch,
        guardedSlots_card (n + 1 + flowNodeCount branch) rank (index + 1)
          branches conditions]
termination_by structural branches => branches

end

mutual

theorem slots_number (n rank : Nat) :
    (e : Entry) → Aligned e →
      (slots n rank e).map Slot.number = List.range' n (nodeCount e)
  | .parallel branches, haligned => by
      simp only [Aligned] at haligned
      exact branchesSlots_number n rank branches haligned
  | .conditional branches conditions, haligned => by
      simp only [Aligned] at haligned
      exact guardedSlots_number n rank 0 branches conditions haligned.1
        haligned.2
  | .step _, _ | .foreach _ _, _ | .loop _ _ _, _ | .sleep _ _, _
  | .sleepUntil _ _, _ | .waitForEvent _ _ _, _ => rfl
termination_by structural e => e

theorem flowSlots_number (n rank : Nat) :
    (flow : List Entry) → FlowAligned flow →
      (flowSlots n rank flow).map Slot.number =
        List.range' n (flowNodeCount flow)
  | [], _ => rfl
  | e :: flow, haligned => by
      simp only [FlowAligned] at haligned
      rw [flowSlots, flowNodeCount, List.map_append,
        slots_number n rank e haligned.1,
        flowSlots_number (n + nodeCount e) (rank + 1) flow haligned.2,
        List.range'_append_1]
termination_by structural flow => flow

theorem branchesSlots_number (n rank : Nat) :
    (branches : List (List Entry)) → BranchesAligned branches →
      (branchesSlots n rank branches).map Slot.number =
        List.range' n (branchesNodeCount 0 branches)
  | [], _ => rfl
  | branch :: branches, haligned => by
      simp only [BranchesAligned] at haligned
      rw [branchesSlots, branchesNodeCount, List.map_append,
        flowSlots_number n rank branch haligned.1,
        branchesSlots_number (n + flowNodeCount branch) rank branches
          haligned.2, List.range'_append_1, Nat.zero_add]
termination_by structural branches => branches

theorem guardedSlots_number (n rank index : Nat) :
    (branches : List (List Entry)) → (conditions : List Condition) →
      branches.length = conditions.length → BranchesAligned branches →
      (guardedSlots n rank index branches conditions).map Slot.number =
        List.range' n (branchesNodeCount 1 branches)
  | [], _, _, _ => rfl
  | _ :: _, [], hlength, _ => by simp at hlength
  | branch :: branches, condition :: conditions, hlength, haligned => by
      simp only [BranchesAligned] at haligned
      rw [guardedSlots, branchesNodeCount, List.map_cons, List.map_append,
        flowSlots_number (n + 1) rank branch haligned.1,
        guardedSlots_number (n + 1 + flowNodeCount branch) rank (index + 1)
          branches conditions (by simpa using hlength) haligned.2,
        List.range'_append_1, Nat.add_assoc 1, Nat.add_comm 1,
        List.range'_succ]
termination_by structural branches => branches

end

theorem guardHeadSlots_number
    (n rank index : Nat) (branches : List (List Entry))
    (conditions : List Condition)
    (hlength : branches.length = conditions.length) :
    (guardHeadSlots n rank index branches conditions).map Slot.number =
      guardHeads n branches := by
  induction branches generalizing n index conditions with
  | nil => rfl
  | cons branch branches ih =>
      cases conditions with
      | nil => simp at hlength
      | cons condition conditions =>
          rw [guardHeadSlots, guardHeads, List.map_cons,
            ih _ _ _ (by simpa using hlength)]

mutual

theorem headSlots_number (n rank : Nat) :
    (e : Entry) → Aligned e →
      (headSlots n rank e).map Slot.number = heads n e
  | .parallel branches, haligned => by
      simp only [Aligned] at haligned
      exact branchesHeadSlots_number n rank branches haligned
  | .conditional branches conditions, haligned => by
      simp only [Aligned] at haligned
      exact guardHeadSlots_number n rank 0 branches conditions haligned.1
  | .step _, _ | .foreach _ _, _ | .loop _ _ _, _ | .sleep _ _, _
  | .sleepUntil _ _, _ | .waitForEvent _ _ _, _ => rfl
termination_by structural e => e

theorem flowHeadSlots_number (n rank : Nat) :
    (flow : List Entry) → FlowAligned flow →
      (flowHeadSlots n rank flow).map Slot.number = flowHeads n flow
  | [], _ => rfl
  | e :: _, haligned => by
      simp only [FlowAligned] at haligned
      exact headSlots_number n rank e haligned.1
termination_by structural flow => flow

theorem branchesHeadSlots_number (n rank : Nat) :
    (branches : List (List Entry)) → BranchesAligned branches →
      (branchesHeadSlots n rank branches).map Slot.number =
        branchesHeads n branches
  | [], _ => rfl
  | branch :: branches, haligned => by
      simp only [BranchesAligned] at haligned
      rw [branchesHeadSlots, branchesHeads, List.map_append,
        flowHeadSlots_number n rank branch haligned.1,
        branchesHeadSlots_number (n + flowNodeCount branch) rank branches
          haligned.2]
termination_by structural branches => branches

end

theorem flowNamingOrder_number_perm
    (n rank : Nat) {flow : List Entry} (haligned : FlowAligned flow) :
    ((flowNamingOrder n rank flow).map Slot.number).Perm
      (List.range' n (flowNodeCount flow)) :=
  flowSlots_number n rank flow haligned ▸
    (flowNamingOrder_perm n rank flow).map Slot.number

end Entry

end Flowchart
