import Flowchart.Proofs.Flow.Appending

/-!
# Folded form

Folding goes through the entries of a flow once.  Afterwards no entry is an else
to the entry right before it, with one exception.  A conditional entry without
conditions does not open with an else and stays where it is, even right behind
another conditional entry; but an else entry right behind it is folded into it,
and then it opens with this else itself.

A folded flow is left alone by further folding exactly if this exception does
not occur.  All this is about single lists of entries: the flows in branches are
folded one by one.
-/

namespace Flowchart

namespace Entry

/-! ## Flows at every depth -/

mutual

/-- The flows in the branches of an entry, at every depth. -/
def innerFlows : Entry → List (List Entry)
  | .parallel branches | .conditional branches _ => branchesFlows branches
  | _ => []
termination_by structural e => e

/-- The flows in the branches of each entry of a flow. -/
def eachInnerFlows : List Entry → List (List Entry)
  | [] => []
  | e :: flow => innerFlows e ++ eachInnerFlows flow
termination_by structural flow => flow

/-- Several branches and the flows in their own branches. -/
def branchesFlows : List (List Entry) → List (List Entry)
  | [] => []
  | branch :: branches =>
    branch :: (eachInnerFlows branch ++ branchesFlows branches)
termination_by structural branches => branches

end

/-- The flow itself and the flows in its branches, at every depth: the lists in
which entries stand side by side. -/
def siblingLists (flow : List Entry) : List (List Entry) :=
  flow :: eachInnerFlows flow

theorem branchesFlows_append (branches others : List (List Entry)) :
    branchesFlows (branches ++ others) =
      branchesFlows branches ++ branchesFlows others := by
  induction branches with
  | nil => rfl
  | cons branch branches ih => simp [branchesFlows, ih]

/-- An entry keeps what stands in it when another one is merged into it. -/
theorem merge?_keeps {last e merged : Entry} (h : merge? last e = some merged) :
    merged.conditions = last.conditions ++ e.conditions ∧
      merged.innerFlows = last.innerFlows ++ e.innerFlows := by
  cases last with
  | conditional branches conditions =>
      cases e with
      | conditional branches' conditions' =>
          simp only [merge?, Option.ite_none_right_eq_some,
            Option.some.injEq] at h
          obtain ⟨-, rfl⟩ := h
          exact ⟨rfl, branchesFlows_append branches branches'⟩
      | _ => simp [merge?] at h
  | _ => simp [merge?] at h

/- The flows of a folded flow are those of the flow, each of them folded. -/
mutual

theorem foldElse_innerFlows :
    (e : Entry) → e.foldElse.innerFlows = e.innerFlows.map foldElseFlow
  | .parallel branches => foldElseBranches_flows branches
  | .conditional branches _ => foldElseBranches_flows branches
  | .step _ | .foreach _ _ | .sleep _ _ | .sleepUntil _ _
  | .waitForEvent _ _ _ | .loop _ _ _ => rfl
termination_by structural e => e

theorem foldElseBranches_flows :
    (branches : List (List Entry)) →
      branchesFlows (foldElseBranches branches) =
        (branchesFlows branches).map foldElseFlow
  | [] => rfl
  | branch :: branches => by
      simp only [foldElseBranches, branchesFlows,
        foldElseFlow_innerFlows branch, foldElseBranches_flows branches,
        List.map_cons, List.map_append]
termination_by structural branches => branches

theorem foldElseFlow_innerFlows :
    (flow : List Entry) →
      eachInnerFlows (foldElseFlow flow) =
        (eachInnerFlows flow).map foldElseFlow
  | [] => rfl
  | e :: flow => by
      rw [foldElseFlow, foldElseAfter_innerFlows flow e.foldElse,
        foldElse_innerFlows e, eachInnerFlows, List.map_append]
termination_by structural flow => flow

theorem foldElseAfter_innerFlows :
    (flow : List Entry) → (last : Entry) →
      eachInnerFlows (foldElseAfter last flow) =
        last.innerFlows ++ (eachInnerFlows flow).map foldElseFlow
  | [], last => by simp [foldElseAfter, eachInnerFlows]
  | e :: flow, last => by
      have hentry := foldElse_innerFlows e
      rw [foldElseAfter, eachInnerFlows, List.map_append, ← hentry]
      cases hmerge : merge? last e.foldElse with
      | none =>
          simp only
          rw [eachInnerFlows, foldElseAfter_innerFlows flow e.foldElse]
      | some merged =>
          simp only
          rw [foldElseAfter_innerFlows flow merged, (merge?_keeps hmerge).2,
            List.append_assoc]
termination_by structural flow => flow

end

theorem foldElse_siblingLists (flow : Flow) :
    siblingLists flow.foldElse = (siblingLists flow).map foldElseFlow := by
  rw [siblingLists, siblingLists, List.map_cons, Flow.foldElse,
    foldElseFlow_innerFlows]

/-! ## Neighbours -/

/-- No entry is an else to the entry right before it. -/
def Apart (flow : List Entry) : Prop :=
  flow.IsChain fun e next => ¬continues e next

/-- An else entry stands behind a conditional entry without conditions, which
stands behind another conditional entry. -/
def Interposed (first bare next : Entry) : Prop :=
  first.type = .conditional ∧ bare.conditions = [] ∧ continues bare next

/-- No entry without conditions stands between a conditional entry and an else
entry. -/
def NoneInterposed (flow : List Entry) : Prop :=
  ∀ first bare next, [first, bare, next] <:+: flow → ¬Interposed first bare next

theorem noneInterposed_singleton (e : Entry) : NoneInterposed [e] := by
  intro first bare next hfactor
  simpa using hfactor.length_le

theorem noneInterposed_cons_cons {first bare : Entry} {flow : List Entry} :
    NoneInterposed (first :: bare :: flow) ↔
      (∀ next ∈ flow.head?, ¬Interposed first bare next) ∧
        NoneInterposed (bare :: flow) := by
  constructor
  · intro h
    constructor
    · intro next hnext
      refine h first bare next ?_
      obtain ⟨rest, rfl⟩ := List.head?_eq_some_iff.mp hnext
      exact (List.prefix_append [first, bare, next] rest).isInfix
    · intro first' bare' next hfactor
      exact h first' bare' next (hfactor.trans (List.suffix_cons _ _).isInfix)
  · rintro ⟨hhead, hrest⟩ first' bare' next hfactor
    rcases List.infix_cons_iff.mp hfactor with hprefix | hlater
    · rw [List.cons_prefix_cons, List.cons_prefix_cons] at hprefix
      obtain ⟨rfl, rfl, hnext⟩ := hprefix
      refine hhead next ?_
      obtain ⟨rest, rfl⟩ := hnext
      rfl
    · exact hrest first' bare' next hlater

theorem continues_iff {e next : Entry} :
    continues e next ↔
      e.type = .conditional ∧ opensWithElse next.conditions := by
  simp [continues]

theorem opensWithElse_append {conditions others : List Condition} :
    opensWithElse (conditions ++ others) ↔
      opensWithElse conditions ∨ conditions = [] ∧ opensWithElse others := by
  cases conditions <;> simp [opensWithElse]

theorem continues_foldElse (e next : Entry) :
    continues e next.foldElse = continues e next := by
  rw [continues, continues, foldElse_conditions]

/-- The first entry of a folded flow opens with an else if the entry that the
folding started with does, or if it has no conditions and the entry behind it is
an else to it. -/
theorem exists_foldElseAfter_eq_cons (last : Entry) (flow : List Entry) :
    ∃ head rest, foldElseAfter last flow = head :: rest ∧
      (opensWithElse head.conditions ↔
        opensWithElse last.conditions ∨
          last.conditions = [] ∧ ∃ next ∈ flow.head?, continues last next) := by
  induction flow generalizing last with
  | nil => exact ⟨last, [], by rw [foldElseAfter], by simp⟩
  | cons e flow ih =>
      by_cases helse : continues last e
      · obtain ⟨merged, hmerge, -⟩ :=
          merge?_eq_some ((continues_foldElse last e).trans helse)
        obtain ⟨head, rest, heq, hopens⟩ := ih merged
        refine ⟨head, rest, by simp [foldElseAfter, hmerge, heq], ?_⟩
        have hconditions := (merge?_keeps hmerge).1
        have hnext := (continues_iff.mp helse).2
        have hne : e.conditions ≠ [] := by
          intro hnil
          simp [hnil, opensWithElse] at hnext
        rw [foldElse_conditions] at hconditions
        simp [hopens, hconditions, opensWithElse_append, hnext, hne, helse]
      · have hmerge : merge? last e.foldElse = none :=
          merge?_eq_none (by rwa [continues_foldElse])
        exact ⟨last, foldElseAfter e.foldElse flow,
          by simp [foldElseAfter, hmerge], by simp [helse]⟩

/- While the flow is folded, `previous` is the latest entry of the document that
was folded into `last`.  An else entry has conditions, and so has what it is
merged into, so `previous` tells whether `last` has any. -/
theorem apart_foldElseAfter_iff
    (flow : List Entry) {last previous : Entry}
    (htype : last.type = previous.type)
    (hbare : last.conditions = [] ↔ previous.conditions = []) :
    Apart (foldElseAfter last flow) ↔ NoneInterposed (previous :: flow) := by
  induction flow generalizing last previous with
  | nil => simp [foldElseAfter, Apart, noneInterposed_singleton]
  | cons e flow ih =>
      rw [noneInterposed_cons_cons]
      by_cases helse : continues last e
      · obtain ⟨merged, hmerge, hmerged, -⟩ :=
          merge?_eq_some ((continues_foldElse last e).trans helse)
        have hne : e.conditions ≠ [] := by
          intro hnil
          simpa [hnil, opensWithElse] using (continues_iff.mp helse).2
        have hconditions := (merge?_keeps hmerge).1
        rw [foldElse_conditions] at hconditions
        have hflow := ih (hmerged.trans (foldElse_type e))
          (by simp [hconditions, hne])
        simp [foldElseAfter, hmerge, hflow, Interposed, hne]
      · have hmerge : merge? last e.foldElse = none :=
          merge?_eq_none (by rwa [continues_foldElse])
        have hflow := ih (foldElse_type e) (by rw [foldElse_conditions])
        obtain ⟨head, rest, heq, hopens⟩ :=
          exists_foldElseAfter_eq_cons e.foldElse flow
        have hhead : continues last head ↔
            ∃ next ∈ flow.head?, Interposed previous e next := by
          rw [continues_iff, htype] at helse
          have hnext : ∀ next,
              continues e.foldElse next = continues e next := by
            intro next
            rw [continues, continues, foldElse_type]
          rw [continues_iff, hopens, foldElse_conditions, htype]
          simp only [Interposed, hnext]
          constructor
          · rintro ⟨hprevious, hopen | ⟨hnone, next, hmem, hcontinues⟩⟩
            · exact absurd ⟨hprevious, hopen⟩ helse
            · exact ⟨next, hmem, hprevious, hnone, hcontinues⟩
          · rintro ⟨next, hmem, hprevious, hnone, hcontinues⟩
            exact ⟨hprevious, .inr ⟨hnone, next, hmem, hcontinues⟩⟩
        simp only [foldElseAfter, hmerge, heq, Apart, List.isChain_cons_cons]
        rw [← heq, ← Apart, hflow, hhead]
        simp

/-- A flow is folded in one pass exactly if no entry without conditions stands
between a conditional entry and its else. -/
theorem apart_foldElseFlow_iff (flow : List Entry) :
    Apart (foldElseFlow flow) ↔ NoneInterposed flow := by
  cases flow with
  | nil => simp [foldElseFlow, Apart, NoneInterposed]
  | cons e flow =>
      exact apart_foldElseAfter_iff flow (foldElse_type e)
        (by rw [foldElse_conditions])

/-! ## A late else -/

/-- The entry that folding starts with keeps what it has in front. -/
theorem exists_foldElseAfter_prefix (last : Entry) (flow : List Entry) :
    ∃ head rest, foldElseAfter last flow = head :: rest ∧
      last.conditions <+: head.conditions ∧
      last.branches <+: head.branches := by
  induction flow generalizing last with
  | nil =>
      exact ⟨last, [], by rw [foldElseAfter], List.prefix_rfl, List.prefix_rfl⟩
  | cons e flow ih =>
      by_cases helse : continues last e.foldElse
      · obtain ⟨merged, hmerge, -, -, hbranches⟩ := merge?_eq_some helse
        have hconditions := (merge?_keeps hmerge).1
        obtain ⟨head, rest, heq, hkeeps, hkeeps'⟩ := ih merged
        rw [hconditions] at hkeeps
        rw [hbranches] at hkeeps'
        exact ⟨head, rest, by simp [foldElseAfter, hmerge, heq],
          (List.prefix_append _ _).trans hkeeps,
          (List.prefix_append _ _).trans hkeeps'⟩
      · have hmerge : merge? last e.foldElse = none := merge?_eq_none helse
        exact ⟨last, foldElseAfter e.foldElse flow,
          by simp [foldElseAfter, hmerge], List.prefix_rfl, List.prefix_rfl⟩

/-- An entry without conditions takes the else right behind it. -/
theorem foldElseFlow_of_interposed
    (before after : List Entry) {first bare next : Entry}
    (h : Interposed first bare next) :
    ∃ opened rest,
      foldElseFlow (before ++ first :: bare :: next :: after) =
        foldElseFlow (before ++ [first]) ++ opened :: rest ∧
      opensWithElse opened.conditions ∧
      next.conditions <+: opened.conditions ∧
      bare.foldElse.branches ++ next.foldElse.branches <+: opened.branches := by
  obtain ⟨-, hbare, helse⟩ := h
  have hseparate : Separate (before ++ [first]) (bare :: next :: after) := by
    rintro last - e he
    obtain rfl := Option.some.inj he
    simp [continues, hbare, opensWithElse]
  have hfolded : continues bare.foldElse next.foldElse := by
    rwa [continues_foldElse, continues_iff, foldElse_type, ← continues_iff]
  obtain ⟨merged, hmerge, -, -, hbranches⟩ := merge?_eq_some hfolded
  have hconditions : merged.conditions = next.conditions := by
    rw [(merge?_keeps hmerge).1, foldElse_conditions, foldElse_conditions,
      hbare, List.nil_append]
  obtain ⟨opened, rest, heq, hkeeps, hkeeps'⟩ :=
    exists_foldElseAfter_prefix merged after
  rw [hconditions] at hkeeps
  rw [hbranches] at hkeeps'
  refine ⟨opened, rest, ?_, ?_, hkeeps, hkeeps'⟩
  · rw [List.append_cons, foldElseFlow_append hseparate, ← heq]
    simp [foldElseFlow, foldElseAfter, hmerge]
  · obtain ⟨others, hothers⟩ := hkeeps
    rw [← hothers, opensWithElse_append]
    exact .inl (continues_iff.mp helse).2

/-! ## Folding twice -/

theorem foldElseAfter_length_le (last : Entry) (flow : List Entry) :
    (foldElseAfter last flow).length ≤ flow.length + 1 := by
  induction flow generalizing last with
  | nil => simp [foldElseAfter]
  | cons e flow ih =>
      rw [foldElseAfter]
      split
      · next merged _ => exact (ih merged).trans (by simp)
      · simpa using ih e.foldElse

/-- A flow that does not get shorter has nothing to fold. -/
theorem apart_of_foldElseAfter_length
    {flow : List Entry} {last previous : Entry}
    (htype : last.type = previous.type)
    (hlength : (foldElseAfter last flow).length = flow.length + 1) :
    Apart (previous :: flow) := by
  induction flow generalizing last previous with
  | nil => exact .singleton previous
  | cons e flow ih =>
      by_cases helse : continues last e
      · obtain ⟨merged, hmerge, -⟩ :=
          merge?_eq_some ((continues_foldElse last e).trans helse)
        have hle := foldElseAfter_length_le merged flow
        simp only [foldElseAfter, hmerge, List.length_cons] at hlength
        omega
      · have hmerge : merge? last e.foldElse = none :=
          merge?_eq_none (by rwa [continues_foldElse])
        simp only [foldElseAfter, hmerge, List.length_cons] at hlength
        have hrest : Apart (e :: flow) :=
          ih (foldElse_type e) (by omega)
        refine List.isChain_cons_cons.mpr ⟨?_, hrest⟩
        rwa [continues_iff, ← htype, ← continues_iff]

theorem apart_of_foldElseFlow_eq
    {flow : List Entry} (h : foldElseFlow flow = flow) : Apart flow := by
  cases flow with
  | nil => exact .nil
  | cons e flow =>
      exact apart_of_foldElseAfter_length (foldElse_type e)
        (congrArg List.length h)

theorem foldElseAfter_of_apart
    {flow : List Entry} {last previous : Entry}
    (htype : last.type = previous.type) (hapart : Apart (previous :: flow)) :
    foldElseAfter last flow = last :: flow.map foldElse := by
  induction flow generalizing last previous with
  | nil => rfl
  | cons e flow ih =>
      obtain ⟨hnot, hrest⟩ := List.isChain_cons_cons.mp hapart
      have hmerge : merge? last e.foldElse = none := by
        refine merge?_eq_none ?_
        rwa [continues_foldElse, continues_iff, htype, ← continues_iff]
      simp [foldElseAfter, hmerge, ih (foldElse_type e) hrest]

theorem foldElseFlow_of_apart
    {flow : List Entry} (hapart : Apart flow) :
    foldElseFlow flow = flow.map foldElse := by
  cases flow with
  | nil => rfl
  | cons e flow => exact foldElseAfter_of_apart (foldElse_type e) hapart

mutual

theorem foldElse_of_apart :
    (e : Entry) → (∀ flow ∈ e.innerFlows, Apart flow) → e.foldElse = e
  | .parallel branches, hapart => by
      rw [foldElse, foldElseBranches_of_apart branches hapart]
  | .conditional branches _, hapart => by
      rw [foldElse, foldElseBranches_of_apart branches hapart]
  | .step _, _ | .foreach _ _, _ | .sleep _ _, _ | .sleepUntil _ _, _
  | .waitForEvent _ _ _, _ | .loop _ _ _, _ => rfl
termination_by structural e => e

theorem map_foldElse_of_apart :
    (flow : List Entry) → (∀ inner ∈ eachInnerFlows flow, Apart inner) →
      flow.map foldElse = flow
  | [], _ => rfl
  | e :: flow, hapart => by
      rw [eachInnerFlows, List.forall_mem_append] at hapart
      rw [List.map_cons, foldElse_of_apart e hapart.1,
        map_foldElse_of_apart flow hapart.2]
termination_by structural flow => flow

theorem foldElseBranches_of_apart :
    (branches : List (List Entry)) →
      (∀ flow ∈ branchesFlows branches, Apart flow) →
      foldElseBranches branches = branches
  | [], _ => rfl
  | branch :: branches, hapart => by
      rw [branchesFlows, List.forall_mem_cons, List.forall_mem_append]
        at hapart
      rw [foldElseBranches, foldElseFlow_of_apart hapart.1,
        map_foldElse_of_apart branch hapart.2.1,
        foldElseBranches_of_apart branches hapart.2.2]
termination_by structural branches => branches

end

/-- Folding leaves a flow alone exactly if nothing is left to fold. -/
theorem foldElse_eq_self_iff (flow : Flow) :
    flow.foldElse = flow ↔ ∀ inner ∈ siblingLists flow, Apart inner := by
  constructor
  · intro h
    have hflows : (siblingLists flow).map foldElseFlow =
        (siblingLists flow).map id := by
      rw [← foldElse_siblingLists, h, List.map_id]
    intro inner hinner
    exact apart_of_foldElseFlow_eq (List.map_inj_left.mp hflows inner hinner)
  · intro hapart
    rw [siblingLists, List.forall_mem_cons] at hapart
    rw [Flow.foldElse, foldElseFlow_of_apart hapart.1,
      map_foldElse_of_apart flow hapart.2]

end Entry

open Entry

/-- After folding, no entry is an else to the entry right before it and folding
once more changes nothing, in both cases exactly if the flow has no conditional
entry without conditions that stands between a conditional entry and an else
entry, at any depth of branches.  Where there is such an entry, the else is
folded into it, and in its place there is an entry that opens with this else. -/
theorem foldElse_folded_iff (flow : Flow) :
    ((∀ inner ∈ siblingLists flow.foldElse, Apart inner) ↔
      ∀ inner ∈ siblingLists flow, NoneInterposed inner) ∧
    (flow.foldElse.foldElse = flow.foldElse ↔
      ∀ inner ∈ siblingLists flow, NoneInterposed inner) ∧
    ∀ before first bare next after,
      before ++ first :: bare :: next :: after ∈ siblingLists flow →
      Interposed first bare next →
      ∃ opened rest,
        foldElseFlow (before ++ [first]) ++ opened :: rest ∈
          siblingLists flow.foldElse ∧
        opensWithElse opened.conditions ∧
        next.conditions <+: opened.conditions ∧
        bare.foldElse.branches ++ next.foldElse.branches <+:
          opened.branches := by
  have hfolded : (∀ inner ∈ siblingLists flow.foldElse, Apart inner) ↔
      ∀ inner ∈ siblingLists flow, NoneInterposed inner := by
    rw [foldElse_siblingLists, List.forall_mem_map]
    simp only [apart_foldElseFlow_iff]
  refine ⟨hfolded, (foldElse_eq_self_iff flow.foldElse).trans hfolded, ?_⟩
  intro before first bare next after hmem hinterposed
  obtain ⟨opened, rest, heq, hopened⟩ :=
    foldElseFlow_of_interposed before after hinterposed
  refine ⟨opened, rest, ?_, hopened⟩
  rw [← heq, foldElse_siblingLists]
  exact List.mem_map_of_mem hmem

/-- An entry without branches and conditions takes the else of the entry before
it. -/
def interposedFlow : Flow :=
  [.conditional [[.step (.plain "a" none)]] [.raw .ifKind "x"],
    .conditional [] [],
    .conditional [[.step (.plain "b" none)]]
      [⟨.elseKind, none, none, none, none⟩]]

/-- The second entry takes the else of the third one. -/
theorem interposedFlow_else_taken :
    interposedFlow ∈ siblingLists interposedFlow ∧
    ∃ opened rest,
      foldElseFlow (interposedFlow.take 1) ++ opened :: rest ∈
        siblingLists interposedFlow.foldElse ∧
      opensWithElse opened.conditions := by
  have hmem : interposedFlow ∈ siblingLists interposedFlow :=
    List.mem_cons_self
  obtain ⟨opened, rest, hfolded, hopens, -⟩ :=
    (foldElse_folded_iff interposedFlow).2.2 [] _ _ _ [] hmem ⟨rfl, rfl, rfl⟩
  exact ⟨hmem, opened, rest, hfolded, hopens⟩

/-- The second entry opens with an else once the third one is folded into it,
and only folding once more merges it into the first one. -/
theorem interposedFlow_folded_late :
    ¬(∀ inner ∈ siblingLists interposedFlow.foldElse, Apart inner) ∧
    interposedFlow.foldElse.foldElse ≠ interposedFlow.foldElse := by
  have hfolded : interposedFlow.foldElse =
      [.conditional [[.step (.plain "a" none)]] [.raw .ifKind "x"],
        .conditional [[.step (.plain "b" none)]]
          [⟨.elseKind, none, none, none, none⟩]] := rfl
  constructor
  · intro hapart
    have htop := hapart interposedFlow.foldElse List.mem_cons_self
    rw [hfolded] at htop
    exact (List.isChain_cons_cons.mp htop).1 rfl
  · intro h
    have hlength := congrArg List.length h
    exact absurd hlength (by decide)

end Flowchart
