import Flowchart.Proofs.Flow.Aligned

/-!
# Rejected flows

Branches and conditions are counted only after else branches are folded.  What
is counted in the document is therefore a whole run: a conditional entry
together with the else entries that are folded into it.  A flow is rejected
exactly when the branches and the conditions of some run differ in number.

An aligned flow is never rejected.  The converse fails: an entry with a
condition too few and an else entry with a condition too many make up for each
other, and a branch then gets a condition that stands in the other entry.
-/

namespace Flowchart.Entry

/-! ## Runs of conditional entries -/

/-- The branches of an entry, if it has any. -/
def branches : Entry → List (List Entry)
  | .parallel branches | .conditional branches _ => branches
  | _ => []

/-- The conditions of an entry, if it has any. -/
def conditions : Entry → List Condition
  | .conditional _ conditions => conditions
  | _ => []

/-- How many more branches than conditions a conditional entry has. -/
def surplus : Entry → Int
  | .conditional branches conditions => branches.length - conditions.length
  | _ => 0

/-- The second of two neighbours is an else to the first. -/
def continues (e next : Entry) : Bool :=
  e.type == .conditional && opensWithElse next.conditions

/-- A run has as many branches as conditions. -/
def Even (run : List Entry) : Prop :=
  (run.map surplus).sum = 0

/-- Every conditional entry of the flow has, together with the else entries
behind it, as many branches as conditions. -/
def RunsEven (flow : List Entry) : Prop :=
  ∀ run ∈ flow.splitBy continues, Even run

mutual

/-- The runs in the branches of an entry are even. -/
def Balanced : Entry → Prop
  | .parallel branches | .conditional branches _ => BranchesBalanced branches
  | _ => True
termination_by structural e => e

/-- The runs in the branches of each entry of a flow are even. -/
def EachBalanced : List Entry → Prop
  | [] => True
  | e :: flow => Balanced e ∧ EachBalanced flow
termination_by structural flow => flow

/-- The runs in several branches are even, at every depth. -/
def BranchesBalanced : List (List Entry) → Prop
  | [] => True
  | branch :: branches =>
    (RunsEven branch ∧ EachBalanced branch) ∧ BranchesBalanced branches
termination_by structural branches => branches

end

/-- The runs of a flow are even, at every depth of branches. -/
def FlowBalanced (flow : List Entry) : Prop :=
  RunsEven flow ∧ EachBalanced flow

/-! ## Merging and folding -/

theorem aligned_iff {e : Entry} :
    Aligned e ↔ e.surplus = 0 ∧ BranchesAligned e.branches := by
  cases e with
  | conditional branches conditions =>
      simp only [Aligned, surplus, Entry.branches, Int.sub_eq_zero,
        Int.natCast_inj]
  | parallel branches => simp [Aligned, surplus, Entry.branches]
  | step | foreach | sleep | sleepUntil | waitForEvent | loop =>
      simp [Aligned, surplus, Entry.branches, BranchesAligned]

theorem branchesAligned_append {branches others : List (List Entry)} :
    BranchesAligned (branches ++ others) ↔
      BranchesAligned branches ∧ BranchesAligned others := by
  induction branches with
  | nil => simp [BranchesAligned]
  | cons branch branches ih =>
      simp only [List.cons_append, BranchesAligned, ih, and_assoc]

theorem merge?_eq_none {last e : Entry} (h : ¬continues last e) :
    merge? last e = none := by
  cases last <;> cases e <;> simp_all [merge?, continues, type, conditions]

theorem merge?_eq_some {last e : Entry} (h : continues last e) :
    ∃ merged, merge? last e = some merged ∧
      merged.type = e.type ∧
      merged.surplus = last.surplus + e.surplus ∧
      merged.branches = last.branches ++ e.branches := by
  cases last with
  | conditional branches conditions =>
      cases e with
      | conditional branches' conditions' =>
          have helse : opensWithElse conditions' = true := by
            simpa [continues, type, Entry.conditions] using h
          refine ⟨.conditional (branches ++ branches')
            (conditions ++ conditions'), by rw [merge?, if_pos helse], rfl, ?_,
            rfl⟩
          simp only [surplus, List.length_append]
          omega
      | _ => simp [continues, Entry.conditions, opensWithElse] at h
  | _ => simp [continues, type] at h

@[simp] theorem foldElse_type (e : Entry) : e.foldElse.type = e.type := by
  cases e <;> rfl

@[simp] theorem foldElse_conditions (e : Entry) :
    e.foldElse.conditions = e.conditions := by
  cases e <;> rfl

theorem foldElseBranches_length (branches : List (List Entry)) :
    (foldElseBranches branches).length = branches.length := by
  induction branches with
  | nil => rfl
  | cons branch branches ih => simp [foldElseBranches, ih]

@[simp] theorem foldElse_surplus (e : Entry) :
    e.foldElse.surplus = e.surplus := by
  cases e with
  | conditional branches conditions =>
      simp [foldElse, surplus, foldElseBranches_length]
  | _ => rfl

/-! ## Folded flows -/

theorem even_reverse_cons {run : List Entry} {e : Entry} :
    Even (e :: run).reverse ↔ e.surplus + (run.map surplus).sum = 0 := by
  simp only [Even, List.map_reverse, List.sum_reverse, List.map_cons,
    List.sum_cons]

/- The induction follows the folding.  While a flow is folded behind `last`,
which the entries of a run have been folded into, the splitting into runs stands
behind `previous`, the latest entry of that run.  Both go on with the run in the
same cases, since either both entries are conditional or neither is. -/
mutual

theorem foldElse_aligned_iff :
    (e : Entry) → (BranchesAligned e.foldElse.branches ↔ Balanced e)
  | .parallel branches => foldElseBranches_aligned_iff branches
  | .conditional branches _ => foldElseBranches_aligned_iff branches
  | .step _ | .foreach _ _ | .sleep _ _ | .sleepUntil _ _
  | .waitForEvent _ _ _ | .loop _ _ _ => by
      simp [foldElse, Entry.branches, Balanced, BranchesAligned]
termination_by structural e => e

theorem foldElseBranches_aligned_iff :
    (branches : List (List Entry)) →
      (BranchesAligned (foldElseBranches branches) ↔ BranchesBalanced branches)
  | [] => by simp [foldElseBranches, BranchesAligned, BranchesBalanced]
  | branch :: branches => by
      rw [foldElseBranches, BranchesAligned, BranchesBalanced,
        foldElseFlow_aligned_iff branch, foldElseBranches_aligned_iff branches,
        FlowBalanced]
termination_by structural branches => branches

theorem foldElseFlow_aligned_iff :
    (flow : List Entry) →
      (FlowAligned (foldElseFlow flow) ↔ FlowBalanced flow)
  | [] => by
      simp [foldElseFlow, FlowAligned, FlowBalanced, RunsEven, EachBalanced]
  | e :: flow => by
      have hflow := foldElseAfter_aligned_iff flow e.foldElse e [] []
        (foldElse_type e) (by simp)
      rw [foldElse_aligned_iff e] at hflow
      simp only [List.not_mem_nil, false_implies, implies_true, and_true]
        at hflow
      rw [foldElseFlow, hflow, FlowBalanced, RunsEven, EachBalanced,
        List.splitBy]
      tauto
termination_by structural flow => flow

theorem foldElseAfter_aligned_iff :
    (flow : List Entry) → (last previous : Entry) → (run : List Entry) →
      (runs : List (List Entry)) → last.type = previous.type →
      last.surplus = previous.surplus + (run.map surplus).sum →
      (FlowAligned (foldElseAfter last flow) ∧ (∀ r ∈ runs, Even r) ↔
        BranchesAligned last.branches ∧ EachBalanced flow ∧
          ∀ r ∈ List.splitBy.loop continues flow previous run runs, Even r)
  | [], last, previous, run, runs, _, hsurplus => by
      simp only [foldElseAfter, FlowAligned, aligned_iff, EachBalanced,
        List.splitBy.loop, List.mem_reverse, List.forall_mem_cons,
        even_reverse_cons, hsurplus]
      tauto
  | e :: flow, last, previous, run, runs, htype, hsurplus => by
      have hentry := foldElse_aligned_iff e
      have hcontinues : continues last e.foldElse = continues previous e := by
        rw [continues, continues, htype, foldElse_conditions]
      simp only [foldElseAfter, List.splitBy.loop, EachBalanced]
      by_cases helse : continues previous e
      · obtain ⟨merged, hmerge, hmerged, htotal, hbranches⟩ :=
          merge?_eq_some (hcontinues.trans helse)
        have hflow := foldElseAfter_aligned_iff flow merged e
          (previous :: run) runs (hmerged.trans (foldElse_type e)) (by
            rw [htotal, hsurplus, foldElse_surplus, List.map_cons,
              List.sum_cons]
            omega)
        simp only [hmerge, helse, hflow, hbranches, branchesAligned_append,
          hentry]
        tauto
      · have hmerge : merge? last e.foldElse = none :=
          merge?_eq_none (by rwa [hcontinues])
        have hflow := foldElseAfter_aligned_iff flow e.foldElse e []
          ((previous :: run).reverse :: runs) (foldElse_type e) (by simp)
        rw [List.forall_mem_cons, even_reverse_cons, hentry] at hflow
        simp only [hmerge, helse, FlowAligned, aligned_iff, hsurplus]
        tauto
termination_by structural flow => flow

end

/-! ## Aligned flows are balanced -/

theorem surplus_eq_zero_of_mem
    {flow : List Entry} (haligned : FlowAligned flow) :
    ∀ e ∈ flow, e.surplus = 0 := by
  induction flow with
  | nil => simp
  | cons e flow ih =>
      simp only [FlowAligned] at haligned
      intro e' he'
      rcases List.mem_cons.mp he' with rfl | hlater
      · exact (aligned_iff.mp haligned.1).1
      · exact ih haligned.2 e' hlater

theorem runsEven_of_aligned
    {flow : List Entry} (haligned : FlowAligned flow) : RunsEven flow := by
  intro run hrun
  have hmem : ∀ e ∈ run, e ∈ flow := by
    intro e he
    rw [← List.flatten_splitBy continues flow]
    exact List.mem_flatten_of_mem hrun he
  refine List.sum_eq_zero ?_
  intro surplus hsurplus
  obtain ⟨e, he, rfl⟩ := List.mem_map.mp hsurplus
  exact surplus_eq_zero_of_mem haligned e (hmem e he)

mutual

theorem balanced_of_aligned : (e : Entry) → Aligned e → Balanced e
  | .parallel branches, haligned => by
      simp only [Aligned] at haligned
      exact branchesBalanced_of_aligned branches haligned
  | .conditional branches _, haligned => by
      simp only [Aligned] at haligned
      exact branchesBalanced_of_aligned branches haligned.2
  | .step _, _ | .foreach _ _, _ | .sleep _ _, _ | .sleepUntil _ _, _
  | .waitForEvent _ _ _, _ | .loop _ _ _, _ => trivial
termination_by structural e => e

theorem eachBalanced_of_aligned :
    (flow : List Entry) → FlowAligned flow → EachBalanced flow
  | [], _ => trivial
  | e :: flow, haligned => by
      simp only [FlowAligned] at haligned
      exact ⟨balanced_of_aligned e haligned.1,
        eachBalanced_of_aligned flow haligned.2⟩
termination_by structural flow => flow

theorem branchesBalanced_of_aligned :
    (branches : List (List Entry)) → BranchesAligned branches →
      BranchesBalanced branches
  | [], _ => trivial
  | branch :: branches, haligned => by
      simp only [BranchesAligned] at haligned
      exact ⟨⟨runsEven_of_aligned haligned.1,
          eachBalanced_of_aligned branch haligned.1⟩,
        branchesBalanced_of_aligned branches haligned.2⟩
termination_by structural branches => branches

end

theorem flowBalanced_of_aligned
    {flow : List Entry} (haligned : FlowAligned flow) : FlowBalanced flow :=
  ⟨runsEven_of_aligned haligned, eachBalanced_of_aligned flow haligned⟩

/-- Folding else branches keeps a flow aligned. -/
theorem foldElse_aligned
    {flow : Flow} (haligned : FlowAligned flow) :
    FlowAligned flow.foldElse :=
  (foldElseFlow_aligned_iff flow).mpr (flowBalanced_of_aligned haligned)

/-! ## Errors -/

/-- The error reports branches and conditions that differ in number. -/
def ReportsMismatch (error : Error) : Prop :=
  ∃ rank branches conditions, branches ≠ conditions ∧
    error = .conditionMismatch rank branches conditions

theorem mismatch?_reports
    {rank : Nat} {branches : List (List Entry)}
    {conditions : List Condition} :
    ∀ error ∈ mismatch? rank branches conditions, ReportsMismatch error := by
  intro error herror
  unfold mismatch? at herror
  split at herror
  · cases herror
  · next hne =>
      cases herror
      exact ⟨rank, branches.length, conditions.length, hne, rfl⟩

theorem forall_mem_or
    {P : Error → Prop} {first second : Option Error}
    (h : ∀ error ∈ first, P error) (h' : ∀ error ∈ second, P error) :
    ∀ error ∈ first.or second, P error := by
  intro error herror
  rcases Option.or_eq_some_iff.mp herror with hfirst | ⟨-, hsecond⟩
  · exact h error hfirst
  · exact h' error hsecond

mutual

theorem entranceMismatch?_reports (rank : Nat) :
    (e : Entry) → ∀ error ∈ entranceMismatch? rank e, ReportsMismatch error
  | .parallel branches => headsMismatch?_reports rank branches
  | .conditional _ _ => mismatch?_reports
  | .step _ | .foreach _ _ | .sleep _ _ | .sleepUntil _ _
  | .waitForEvent _ _ _ | .loop _ _ _ => by simp [entranceMismatch?]
termination_by structural e => e

theorem headsMismatch?_reports (rank : Nat) :
    (branches : List (List Entry)) →
      ∀ error ∈ headsMismatch? rank branches, ReportsMismatch error
  | [] => by simp [headsMismatch?]
  | branch :: branches =>
      forall_mem_or (headMismatch?_reports rank branch)
        (headsMismatch?_reports rank branches)
termination_by structural branches => branches

theorem headMismatch?_reports (rank : Nat) :
    (branch : List Entry) →
      ∀ error ∈ headMismatch? rank branch, ReportsMismatch error
  | [] => by simp [headMismatch?]
  | e :: _ => entranceMismatch?_reports rank e
termination_by structural branch => branch

end

mutual

theorem bodyMismatch?_reports (rank : Nat) :
    (e : Entry) → ∀ error ∈ bodyMismatch? rank e, ReportsMismatch error
  | .parallel branches => branchesMismatch?_reports rank true branches
  | .conditional branches _ => branchesMismatch?_reports rank false branches
  | .step _ | .foreach _ _ | .sleep _ _ | .sleepUntil _ _
  | .waitForEvent _ _ _ | .loop _ _ _ => by simp [bodyMismatch?]
termination_by structural e => e

theorem flowMismatch?_reports (rank : Nat) (headChecked : Bool) :
    (flow : List Entry) →
      ∀ error ∈ flowMismatch? rank headChecked flow, ReportsMismatch error
  | [] => by simp [flowMismatch?]
  | e :: flow => by
      refine forall_mem_or (forall_mem_or ?_ (bodyMismatch?_reports rank e))
        (flowMismatch?_reports (rank + 1) false flow)
      split
      · simp
      · exact entranceMismatch?_reports rank e
termination_by structural flow => flow

theorem branchesMismatch?_reports (rank : Nat) (headChecked : Bool) :
    (branches : List (List Entry)) →
      ∀ error ∈ branchesMismatch? rank headChecked branches,
        ReportsMismatch error
  | [] => by simp [branchesMismatch?]
  | branch :: branches =>
      forall_mem_or (flowMismatch?_reports rank headChecked branch)
        (branchesMismatch?_reports rank headChecked branches)
termination_by structural branches => branches

end

end Flowchart.Entry

namespace Flowchart

open Entry

namespace Diagram

theorem exists_ofFlow_eq_error_iff
    {style : EdgeStyle} {flow : Flow} :
    (∃ error, ofFlow style flow = .error error) ↔ ¬FlowBalanced flow := by
  rw [← foldElseFlow_aligned_iff flow,
    ← (flowMismatch?_eq_none_iff 0 (foldElseFlow flow)).2]
  unfold ofFlow Flow.foldElse
  split
  · next error herror => simp [herror]
  · next hnone => simp [hnone]

theorem ofFlow_error_reports
    {style : EdgeStyle} {flow : Flow} {error : Error}
    (h : ofFlow style flow = .error error) : ReportsMismatch error := by
  unfold ofFlow at h
  split at h
  · next error' herror =>
      cases h
      exact flowMismatch?_reports 0 false flow.foldElse error herror
  · cases h

end Diagram

/-- A flow is rejected exactly if the branches and the conditions of some run of
conditional entries differ in number, and the error then reports two different
numbers.  Flows whose entries are all aligned are never rejected. -/
theorem ofFlow_rejects_unbalanced (style : EdgeStyle) (flow : Flow) :
    ((∃ error, Diagram.ofFlow style flow = .error error) ↔
      ¬FlowBalanced flow) ∧
    (∀ error, Diagram.ofFlow style flow = .error error →
      ∃ rank branches conditions, branches ≠ conditions ∧
        error = .conditionMismatch rank branches conditions) ∧
    (FlowAligned flow → FlowBalanced flow) :=
  ⟨Diagram.exists_ofFlow_eq_error_iff,
    fun _ => Diagram.ofFlow_error_reports, flowBalanced_of_aligned⟩

/-- The first entry lacks a condition, and the else entry behind it has one too
many. -/
def compensatedFlow : Flow :=
  [.conditional [[.step (.plain "B" none)], [.step (.plain "C" none)]]
      [.raw .ifKind "ready"],
    .conditional [[.step (.plain "D" none)]]
      [⟨.elseKind, none, none, none, none⟩, .raw .ifKind "late"]]

/-- Step `C` gets the condition that the document declares for step `D`. -/
theorem compensatedFlow_accepted :
    ¬FlowAligned compensatedFlow ∧
    ∃ diagram, Diagram.ofFlow .standard compensatedFlow = .ok diagram ∧
      diagram.nodes.map (fun node => (node.id, node.payload.conditions)) =
        [("B-0-when-0", [.raw .ifKind "ready"]), ("B", []),
          ("C-0-when-1", [⟨.elseKind, none, none, none, none⟩]), ("C", []),
          ("D-0-when-2", [.raw .ifKind "late"]), ("D", [])] := by
  constructor
  · simp [compensatedFlow, FlowAligned, Aligned]
  · have hok := Diagram.ofFlow_eq_ok
      (by decide : flowMismatch? 0 false compensatedFlow.foldElse = none)
      .standard
    exact ⟨_, hok, by decide +kernel⟩

end Flowchart
