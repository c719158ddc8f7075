import Flowchart.Proofs.Flow.Naming

/-!
# Which node keeps a declared id

Of the nodes that a flow declares one id for, only the one that is named first
can keep the id as it is declared.  It is the first one that is drawn as well,
with one exception: a parallel entry is entered through the first nodes of all
of its branches, and these are named before its other nodes are.
-/

namespace Flowchart

open Names Outline Entry

/-! ## Forks -/

/-- A parallel entry whose nodes are numbered from `first` on. -/
structure Fork where
  first : Nat
  branches : List (List Entry)

namespace Fork

/-- The nodes by which the parallel entry is entered. -/
def heads (fork : Fork) : List Nat :=
  branchesHeads fork.first fork.branches

/-- Both nodes belong to the parallel entry, which is entered through node `i`
but not through node `j`. -/
structure Prefers (fork : Fork) (i j : Nat) : Prop where
  head : i ∈ fork.heads
  within : fork.first ≤ j ∧
    j < fork.first + branchesNodeCount 0 fork.branches
  inner : j ∉ fork.heads

end Fork

namespace Entry

mutual

/-- The parallel entries in an entry, at every depth of branches. -/
def forks (n : Nat) : Entry → List Fork
  | .parallel branches => ⟨n, branches⟩ :: branchesForks 0 n branches
  | .conditional branches _ => branchesForks 1 n branches
  | _ => []
termination_by structural e => e

/-- The parallel entries in a flow. -/
def flowForks (n : Nat) : List Entry → List Fork
  | [] => []
  | e :: flow => forks n e ++ flowForks (n + nodeCount e) flow
termination_by structural flow => flow

/-- The parallel entries in several branches, with `lead` nodes in front of each
branch. -/
def branchesForks (lead n : Nat) : List (List Entry) → List Fork
  | [] => []
  | branch :: branches =>
    flowForks (n + lead) branch ++
      branchesForks lead (n + lead + flowNodeCount branch) branches
termination_by structural branches => branches

end

end Entry

/-- Node `i` comes before node `j`, unless a parallel entry prefers the latter
one; or a parallel entry prefers node `i`. -/
structure NamedBefore (forks : List Fork) (i j : Nat) : Prop where
  preferred : j < i → ∃ fork ∈ forks, fork.Prefers i j
  not_preferred : ∀ fork ∈ forks, ¬fork.Prefers j i

namespace Entry

/-! ## Bounds -/

theorem namingOrder_bounds
    {n rank : Nat} {e : Entry} (haligned : Aligned e) {slot : Slot}
    (hslot : slot ∈ namingOrder n rank e) :
    n ≤ slot.number ∧ slot.number < n + nodeCount e := by
  have hmem := List.mem_map_of_mem (f := Slot.number)
    ((namingOrder_perm n rank e).mem_iff.mp hslot)
  rwa [slots_number n rank e haligned, List.mem_range'_1] at hmem

theorem flowNamingOrder_bounds
    {n rank : Nat} {flow : List Entry} (haligned : FlowAligned flow)
    {slot : Slot} (hslot : slot ∈ flowNamingOrder n rank flow) :
    n ≤ slot.number ∧ slot.number < n + flowNodeCount flow := by
  have hmem := List.mem_map_of_mem (f := Slot.number)
    ((flowNamingOrder_perm n rank flow).mem_iff.mp hslot)
  rwa [flowSlots_number n rank flow haligned, List.mem_range'_1] at hmem

/-- The nodes by which an entry is entered do not count as its other nodes. -/
theorem notMem_heads
    {n rank : Nat} {e : Entry} (haligned : Aligned e) {slot : Slot}
    (hslot : slot ∈ innerSlots n rank e) : slot.number ∉ heads n e := by
  have hperm := (namingOrder_perm n rank e).map Slot.number
  rw [slots_number n rank e haligned, namingOrder, List.map_append,
    headSlots_number n rank e haligned] at hperm
  have hnodup := hperm.nodup_iff.mpr List.nodup_range'
  intro hhead
  exact (List.nodup_append.mp hnodup).2.2 _ hhead _
    (List.mem_map_of_mem hslot) rfl

/-! ## Heads ascend -/

theorem guardHeads_ascending (n : Nat) (branches : List (List Entry)) :
    (guardHeads n branches).Pairwise (· < ·) := by
  induction branches generalizing n with
  | nil => exact .nil
  | cons branch branches ih =>
      refine List.pairwise_cons.mpr ⟨?_, ih _⟩
      intro i hi
      have hbounds := (guarded_bounds (n + 1 + flowNodeCount branch)
        branches).1 i hi
      omega

mutual

theorem heads_ascending (n : Nat) :
    (e : Entry) → (heads n e).Pairwise (· < ·)
  | .parallel branches => branchesHeads_ascending n branches
  | .conditional branches _ => guardHeads_ascending n branches
  | .step _ | .foreach _ _ | .loop _ _ _ | .sleep _ _ | .sleepUntil _ _
  | .waitForEvent _ _ _ => List.pairwise_singleton _ _
termination_by structural e => e

theorem flowHeads_ascending (n : Nat) :
    (flow : List Entry) → (flowHeads n flow).Pairwise (· < ·)
  | [] => .nil
  | e :: _ => heads_ascending n e
termination_by structural flow => flow

theorem branchesHeads_ascending (n : Nat) :
    (branches : List (List Entry)) →
      (branchesHeads n branches).Pairwise (· < ·)
  | [] => .nil
  | branch :: branches => by
      refine List.pairwise_append.mpr ⟨flowHeads_ascending n branch,
        branchesHeads_ascending (n + flowNodeCount branch) branches, ?_⟩
      intro i hi j hj
      have hfirst := (flow_bounds n branch).1 i hi
      have hlater := (branches_bounds (n + flowNodeCount branch)
        branches).1 j hj
      omega
termination_by structural branches => branches

end

/-! ## Naming against the order of drawing -/

/-- If the slot is declared and stands behind the one that is named later, then
a parallel entry prefers it. -/
def Agrees (forks : List Fork) (slot later : Slot) : Prop :=
  slot.declared = true → later.number < slot.number →
    ∃ fork ∈ forks, fork.Prefers slot.number later.number

theorem agrees_of_lt
    {forks : List Fork} {slot later : Slot}
    (h : slot.number < later.number) : Agrees forks slot later :=
  fun _ hlt => absurd hlt h.asymm

theorem Agrees.mono
    {forks others : List Fork} (hsubset : forks ⊆ others)
    {slot later : Slot} (h : Agrees forks slot later) :
    Agrees others slot later := by
  intro hdeclared hlt
  obtain ⟨fork, hfork, hprefers⟩ := h hdeclared hlt
  exact ⟨fork, hsubset hfork, hprefers⟩

theorem headSlots_pairwise
    {n rank : Nat} {e : Entry} (haligned : Aligned e) (forks : List Fork) :
    (headSlots n rank e).Pairwise (Agrees forks) := by
  have hascending := heads_ascending n e
  rw [← headSlots_number n rank e haligned, List.pairwise_map] at hascending
  exact hascending.imp agrees_of_lt

theorem guardHeadSlots_declared
    {n rank index : Nat} {branches : List (List Entry)}
    {conditions : List Condition} {slot : Slot}
    (hslot : slot ∈ guardHeadSlots n rank index branches conditions) :
    slot.declared = false := by
  induction branches generalizing n index conditions with
  | nil => cases hslot
  | cons branch branches ih =>
      cases conditions with
      | nil => cases hslot
      | cons condition conditions =>
          rcases List.mem_cons.mp hslot with rfl | hlater
          · rfl
          · exact ih hlater

theorem prefers_of_mem
    {n rank : Nat} {branches : List (List Entry)}
    (haligned : Aligned (.parallel branches)) {slot later : Slot}
    (hslot : slot ∈ headSlots n rank (.parallel branches))
    (hlater : later ∈ innerSlots n rank (.parallel branches)) :
    Fork.Prefers ⟨n, branches⟩ slot.number later.number where
  head := by
    have hmem := List.mem_map_of_mem (f := Slot.number) hslot
    rwa [headSlots_number n rank _ haligned] at hmem
  within := namingOrder_bounds haligned (List.mem_append_right _ hlater)
  inner := notMem_heads haligned hlater

/- The induction follows the branches of an entry.  Pairs within one branch
agree by induction, and pairs from different branches stand in the order of
their branches; what is left are the heads of an entry and its inner nodes. -/
mutual

theorem namingOrder_pairwise (n rank : Nat) :
    (e : Entry) → Aligned e →
      (namingOrder n rank e).Pairwise (Agrees (forks n e))
  | .parallel branches, haligned => by
      refine List.pairwise_append.mpr
        ⟨headSlots_pairwise haligned _, ?_, ?_⟩
      · have hbranches := haligned
        simp only [Aligned] at hbranches
        exact (branchesInner_pairwise n rank branches hbranches).imp
          (Agrees.mono (List.subset_cons_self _ _))
      · intro slot hslot later hlater _ _
        exact ⟨⟨n, branches⟩, List.mem_cons_self,
          prefers_of_mem haligned hslot hlater⟩
  | .conditional branches conditions, haligned => by
      refine List.pairwise_append.mpr
        ⟨headSlots_pairwise haligned _, ?_, ?_⟩
      · simp only [Aligned] at haligned
        exact guardedInner_pairwise n rank branches conditions haligned.1
          haligned.2
      · intro slot hslot later _ hdeclared
        rw [guardHeadSlots_declared hslot] at hdeclared
        cases hdeclared
  | .loop _ _ _, _ =>
      List.pairwise_pair.mpr (agrees_of_lt (Nat.lt_succ_self n))
  | .step _, _ | .foreach _ _, _ | .sleep _ _, _ | .sleepUntil _ _, _
  | .waitForEvent _ _ _, _ => List.pairwise_singleton _ _
termination_by structural e => e

theorem flowNamingOrder_pairwise (n rank : Nat) :
    (flow : List Entry) → FlowAligned flow →
      (flowNamingOrder n rank flow).Pairwise (Agrees (flowForks n flow))
  | [], _ => .nil
  | e :: flow, haligned => by
      simp only [FlowAligned] at haligned
      rw [flowNamingOrder_cons]
      refine List.pairwise_append.mpr
        ⟨(namingOrder_pairwise n rank e haligned.1).imp
          (Agrees.mono (List.subset_append_left _ _)),
        (flowNamingOrder_pairwise (n + nodeCount e) (rank + 1) flow
          haligned.2).imp (Agrees.mono (List.subset_append_right _ _)), ?_⟩
      intro slot hslot later hlater
      have hfirst := namingOrder_bounds haligned.1 hslot
      have hsecond := flowNamingOrder_bounds haligned.2 hlater
      exact agrees_of_lt (by omega)
termination_by structural flow => flow

theorem branchesInner_pairwise (n rank : Nat) :
    (branches : List (List Entry)) → BranchesAligned branches →
      (branchesInnerSlots n rank branches).Pairwise
        (Agrees (branchesForks 0 n branches))
  | [], _ => .nil
  | branch :: branches, haligned => by
      simp only [BranchesAligned] at haligned
      refine List.pairwise_append.mpr
        ⟨((flowNamingOrder_pairwise n rank branch haligned.1).sublist
          (List.sublist_append_right _ _)).imp
            (Agrees.mono (List.subset_append_left _ _)),
        (branchesInner_pairwise (n + flowNodeCount branch) rank branches
          haligned.2).imp (Agrees.mono (List.subset_append_right _ _)), ?_⟩
      intro slot hslot later hlater
      have hfirst := flowNamingOrder_bounds haligned.1
        (List.mem_append_right _ hslot)
      have hsecond := namingOrder_bounds (e := .parallel branches)
        (by simpa only [Aligned] using haligned.2)
        (List.mem_append_right _ hlater)
      exact agrees_of_lt (by omega)
termination_by structural branches => branches

theorem guardedInner_pairwise (n rank : Nat) :
    (branches : List (List Entry)) → (conditions : List Condition) →
      branches.length = conditions.length → BranchesAligned branches →
      (guardedInnerSlots n rank branches conditions).Pairwise
        (Agrees (branchesForks 1 n branches))
  | [], _, _, _ => .nil
  | _ :: _, [], hlength, _ => by simp at hlength
  | branch :: branches, condition :: conditions, hlength, haligned => by
      simp only [BranchesAligned] at haligned
      have hlength' : branches.length = conditions.length := by
        simpa using hlength
      refine List.pairwise_append.mpr
        ⟨(flowNamingOrder_pairwise (n + 1) rank branch haligned.1).imp
            (Agrees.mono (List.subset_append_left _ _)),
        (guardedInner_pairwise (n + 1 + flowNodeCount branch) rank branches
          conditions hlength' haligned.2).imp
            (Agrees.mono (List.subset_append_right _ _)), ?_⟩
      intro slot hslot later hlater
      have hfirst := flowNamingOrder_bounds haligned.1 hslot
      have hsecond := namingOrder_bounds (e := .conditional branches conditions)
        (by simpa only [Aligned] using And.intro hlength' haligned.2)
        (List.mem_append_right _ hlater)
      exact agrees_of_lt (by omega)
termination_by structural branches => branches

end

/-! ## Parallel entries prefer their heads -/

/-- The list has the nodes of the parallel entry in the order in which they
would be named on their own. -/
def NamesFork (order : List Slot) (fork : Fork) : Prop :=
  ∃ rank, Aligned (.parallel fork.branches) ∧
    (namingOrder fork.first rank (.parallel fork.branches)).Sublist order

theorem NamesFork.mono
    {order others : List Slot} {fork : Fork} (h : NamesFork order fork)
    (hsublist : order.Sublist others) : NamesFork others fork := by
  obtain ⟨rank, haligned, hfork⟩ := h
  exact ⟨rank, haligned, hfork.trans hsublist⟩

mutual

theorem namingOrder_namesFork (n rank : Nat) :
    (e : Entry) → Aligned e → ∀ fork ∈ forks n e,
      NamesFork (namingOrder n rank e) fork
  | .parallel branches, haligned, fork, hfork => by
      rcases List.mem_cons.mp hfork with rfl | hinner
      · exact ⟨rank, haligned, .refl _⟩
      · simp only [Aligned] at haligned
        exact branches_namesFork n rank branches haligned fork hinner
  | .conditional branches conditions, haligned, fork, hfork => by
      simp only [Aligned] at haligned
      exact (guarded_namesFork n rank branches conditions haligned.1
        haligned.2 fork hfork).mono (List.sublist_append_right _ _)
  | .step _, _, _, hfork | .foreach _ _, _, _, hfork
  | .loop _ _ _, _, _, hfork | .sleep _ _, _, _, hfork
  | .sleepUntil _ _, _, _, hfork | .waitForEvent _ _ _, _, _, hfork => by
      cases hfork
termination_by structural e => e

theorem flow_namesFork (n rank : Nat) :
    (flow : List Entry) → FlowAligned flow → ∀ fork ∈ flowForks n flow,
      NamesFork (flowNamingOrder n rank flow) fork
  | [], _, _, hfork => by cases hfork
  | e :: flow, haligned, fork, hfork => by
      simp only [FlowAligned] at haligned
      rw [flowNamingOrder_cons]
      rcases List.mem_append.mp hfork with hfirst | hlater
      · exact (namingOrder_namesFork n rank e haligned.1 fork hfirst).mono
          (List.sublist_append_left _ _)
      · exact (flow_namesFork (n + nodeCount e) (rank + 1) flow haligned.2
          fork hlater).mono (List.sublist_append_right _ _)
termination_by structural flow => flow

theorem branches_namesFork (n rank : Nat) :
    (branches : List (List Entry)) → BranchesAligned branches →
      ∀ fork ∈ branchesForks 0 n branches,
      NamesFork (branchesHeadSlots n rank branches ++
        branchesInnerSlots n rank branches) fork
  | [], _, _, hfork => by cases hfork
  | branch :: branches, haligned, fork, hfork => by
      simp only [BranchesAligned] at haligned
      rcases List.mem_append.mp hfork with hfirst | hlater
      · exact (flow_namesFork n rank branch haligned.1 fork hfirst).mono
          ((List.sublist_append_left _ _).append
            (List.sublist_append_left _ _))
      · exact (branches_namesFork (n + flowNodeCount branch) rank branches
          haligned.2 fork hlater).mono
            ((List.sublist_append_right _ _).append
              (List.sublist_append_right _ _))
termination_by structural branches => branches

theorem guarded_namesFork (n rank : Nat) :
    (branches : List (List Entry)) → (conditions : List Condition) →
      branches.length = conditions.length → BranchesAligned branches →
      ∀ fork ∈ branchesForks 1 n branches,
      NamesFork (guardedInnerSlots n rank branches conditions) fork
  | [], _, _, _, _, hfork => by cases hfork
  | _ :: _, [], hlength, _, _, _ => by simp at hlength
  | branch :: branches, condition :: conditions, hlength, haligned, fork,
      hfork => by
      simp only [BranchesAligned] at haligned
      rcases List.mem_append.mp hfork with hfirst | hlater
      · exact (flow_namesFork (n + 1) rank branch haligned.1 fork hfirst).mono
          (List.sublist_append_left _ _)
      · exact (guarded_namesFork (n + 1 + flowNodeCount branch) rank branches
          conditions (by simpa using hlength) haligned.2 fork hlater).mono
            (List.sublist_append_right _ _)
termination_by structural branches => branches

end

/-- The preferred one of two nodes is named first. -/
theorem numbers_sublist_of_prefers
    {n : Nat} (rank : Nat) {flow : List Entry} (haligned : FlowAligned flow)
    {fork : Fork} (hfork : fork ∈ flowForks n flow) {i j : Nat}
    (h : fork.Prefers i j) :
    [i, j].Sublist ((flowNamingOrder n rank flow).map Slot.number) := by
  obtain ⟨inside, hinside, hsublist⟩ :=
    flow_namesFork n rank flow haligned fork hfork
  refine List.Sublist.trans ?_ (hsublist.map Slot.number)
  have hheads := headSlots_number fork.first inside _ hinside
  have hperm := (namingOrder_perm fork.first inside
    (.parallel fork.branches)).map Slot.number
  rw [slots_number fork.first inside _ hinside, namingOrder, List.map_append,
    hheads] at hperm
  rw [namingOrder, List.map_append, hheads]
  have hmem := hperm.mem_iff.mpr (List.mem_range'_1.mpr h.within)
  have hinner := (List.mem_append.mp hmem).resolve_left h.inner
  exact (List.singleton_sublist.mpr h.head).append
    (List.singleton_sublist.mpr hinner)

theorem not_prefers_of_sublist
    {n rank : Nat} {flow : List Entry} (haligned : FlowAligned flow)
    {slot later : Slot}
    (hsublist : [slot, later].Sublist (flowNamingOrder n rank flow))
    {fork : Fork} (hfork : fork ∈ flowForks n flow) :
    ¬fork.Prefers later.number slot.number := by
  intro hprefers
  have hnodup := (flowNamingOrder_number_perm n rank haligned).nodup_iff.mpr
    List.nodup_range'
  have hback := numbers_sublist_of_prefers rank haligned hfork hprefers
  have hforth := hsublist.map Slot.number
  have heq := (hnodup.perm_iff_eq_of_sublist hforth hback).mp (.swap _ _ _)
  have hnumber : slot.number = later.number := (List.cons.inj heq).1
  exact hprefers.inner (hnumber ▸ hprefers.head)

/-- What `NamedBefore` says holds of a declared node and any node that comes
after it in the naming order. -/
theorem flowNamingOrder_namedBefore
    {flow : List Entry} (haligned : FlowAligned flow) (n rank : Nat) :
    (flowNamingOrder n rank flow).Pairwise fun slot later =>
      slot.declared = true →
        NamedBefore (flowForks n flow) slot.number later.number := by
  have hagrees := flowNamingOrder_pairwise n rank flow haligned
  rw [List.pairwise_iff_forall_sublist] at hagrees ⊢
  intro slot later hsublist hdeclared
  exact ⟨hagrees hsublist hdeclared,
    fun _ hfork => not_prefers_of_sublist haligned hsublist hfork⟩

/-- Of two slots, one comes before the other. -/
theorem rel_or_rel_of_pairwise
    {order : List Slot} {before : Slot → Slot → Prop}
    (h : order.Pairwise before) {slot other : Slot} (hslot : slot ∈ order)
    (hother : other ∈ order) (hne : slot ≠ other) :
    before slot other ∨ before other slot := by
  let ordered : Slot → Slot → Prop := fun x y => before x y ∨ before y x
  have hsymm : Std.Symm ordered := ⟨fun _ _ h => h.symm⟩
  have hordered : order.Pairwise ordered := h.imp Or.inl
  exact hordered.forall hslot hother hne

end Entry

/-! ## The node that keeps its id -/

namespace Diagram

/-- No node has the id that a node asks for which is named before it. -/
theorem ofFoldedFlow_nodeId_ne
    {flow : Flow} (haligned : FlowAligned flow) (style : EdgeStyle) :
    (flowNamingOrder 0 0 flow).Pairwise fun slot later =>
      (ofFoldedFlow style flow).nodeIds[later.number]? ≠
        some slot.card.baseId :=
  pairwise_of_map_eq_givenNames (ofFoldedFlow_named haligned style)

theorem exists_nodeId_of_mem_slots
    {flow : Flow} (haligned : FlowAligned flow) (style : EdgeStyle)
    {slot : Slot} (hslot : slot ∈ flowSlots 0 0 flow) :
    ∃ name, (ofFoldedFlow style flow).nodeIds[slot.number]? = some name ∧
      IsRenaming slot.card.baseId slot.card.rank name := by
  obtain ⟨hlength, hleast⟩ := List.forall₂_iff_get.mp
    (ofFoldedFlow_slots_least haligned style)
  obtain ⟨i, hi, rfl⟩ := List.getElem_of_mem hslot
  obtain ⟨hname, hrenaming⟩ := hleast i hi (hlength ▸ hi)
  exact ⟨_, hname, hrenaming.isRenaming⟩

end Diagram

/-- If one of the nodes that a flow declares an id for keeps the id, then all
others are renamed, and the one that keeps it is named before them.  It is drawn
before each of them as well, unless some parallel entry has both nodes and is
entered through the one but not through the other. -/
theorem ofFlow_first_named_keeps_id
    {style : EdgeStyle} {flow : Flow} {diagram : Diagram} {declared : String}
    {slot other : Slot} (h : Diagram.ofFlow style flow = .ok diagram)
    (hslot : slot ∈ flowSlots 0 0 flow.foldElse)
    (hother : other ∈ flowSlots 0 0 flow.foldElse)
    (hdeclared : slot.declaredId? = some declared)
    (hdeclared' : other.declaredId? = some declared)
    (hkeeps : diagram.nodeIds[slot.number]? = some declared)
    (hne : other.number ≠ slot.number) :
    (∃ name, diagram.nodeIds[other.number]? = some name ∧
      IsVariant (numbered declared other.card.rank) name) ∧
    NamedBefore (flowForks 0 flow.foldElse) slot.number other.number := by
  obtain ⟨haligned, rfl⟩ := Diagram.ofFlow_eq_ok_iff.mp h
  rw [Slot.declaredId?_eq_some_iff] at hdeclared hdeclared'
  have hperm := flowNamingOrder_perm 0 0 flow.foldElse
  have hordered := (Diagram.ofFoldedFlow_nodeId_ne haligned style).and
    (flowNamingOrder_namedBefore haligned 0 0)
  have hslots : slot ≠ other := by
    rintro rfl
    exact hne rfl
  rcases rel_or_rel_of_pairwise hordered (hperm.mem_iff.mpr hslot)
    (hperm.mem_iff.mpr hother) hslots with ⟨hfresh, hbefore⟩ | ⟨hfresh, -⟩
  · obtain ⟨name, hname, hrenaming⟩ :=
      Diagram.exists_nodeId_of_mem_slots haligned style hother
    refine ⟨⟨name, hname, ?_⟩, hbefore hdeclared.1⟩
    rw [hdeclared'.2] at hrenaming
    refine hrenaming.resolve_left fun heq => hfresh ?_
    rw [hdeclared.2, ← heq]
    exact hname
  · rw [hdeclared'.2] at hfresh
    exact absurd hkeeps hfresh

/-- The second branch is entered through an id that the first branch declares as
well, behind its first node. -/
def crossedFlow : Flow :=
  [.parallel
    [[.step (.plain "X" none), .step (.plain "A" none)],
      [.step (.plain "A" none)]]]

theorem crossedFlow_first_named_keeps_id :
    ∃ diagram, Diagram.ofFlow .standard crossedFlow = .ok diagram ∧
      (∃ name, diagram.nodeIds[1]? = some name ∧
        IsVariant (numbered "A" 1) name) ∧
      NamedBefore (flowForks 0 crossedFlow.foldElse) 2 1 := by
  have hok := Diagram.ofFlow_eq_ok
    (by decide : flowMismatch? 0 false crossedFlow.foldElse = none) .standard
  have hslots : flowSlots 0 0 crossedFlow.foldElse =
      [⟨0, true, .ofStep 0 (.plain "X" none)⟩,
        ⟨1, true, .ofStep 1 (.plain "A" none)⟩,
        ⟨2, true, .ofStep 0 (.plain "A" none)⟩] :=
    rfl
  have hkept : (⟨2, true, .ofStep 0 (.plain "A" none)⟩ : Slot) ∈
      flowSlots 0 0 crossedFlow.foldElse := by
    simp [hslots]
  have hother : (⟨1, true, .ofStep 1 (.plain "A" none)⟩ : Slot) ∈
      flowSlots 0 0 crossedFlow.foldElse := by
    simp [hslots]
  exact ⟨_, hok, ofFlow_first_named_keeps_id hok hkept hother rfl rfl
    (by decide +kernel) (by decide)⟩

/-- The node that keeps the id is not the first one that is drawn. -/
theorem crossedFlow_second_keeps_id :
    ∃ diagram, Diagram.ofFlow .standard crossedFlow = .ok diagram ∧
      (flowSlots 0 0 crossedFlow.foldElse).map
          (fun slot => (slot.number, slot.declaredId?)) =
        [(0, some "X"), (1, some "A"), (2, some "A")] ∧
      diagram.nodeIds = ["X", "A-1", "A"] := by
  have hok := Diagram.ofFlow_eq_ok
    (by decide : flowMismatch? 0 false crossedFlow.foldElse = none) .standard
  exact ⟨_, hok, by decide, by decide +kernel⟩

end Flowchart
