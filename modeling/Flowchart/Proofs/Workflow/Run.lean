import Flowchart.Proofs.Workflow.Schedule

/-!
# Runs over subscriber graphs

A run draws subscriber graphs one after the other, each behind the ends that
its key names at that moment.  Going through the graphs again and again, until
nothing changes, is a run over the graphs of the schedule.  So what drawing one
graph keeps, drawing a whole workflow keeps.
-/

namespace Flowchart.Progress

open Schedule (Ready gained)

/-- The ids of the steps that are drawn, the most recent first. -/
def known (p : Progress) : List String :=
  p.landings.map Prod.fst

/-! ## Known steps -/

@[simp] theorem drawStep_known
    (p : Progress) (step : ChainStep) (rank : Nat) (incoming : Frontier) :
    (p.drawStep step rank incoming).2.known = step.id :: p.known := rfl

theorem mem_drawChain_known
    {p : Progress} {rank : Nat} {incoming : Frontier}
    {steps : List ChainStep} {id : String} :
    id ∈ (drawChain rank incoming steps p).known ↔
      id ∈ p.known ∨ id ∈ steps.map ChainStep.id := by
  induction steps generalizing p rank incoming with
  | nil => simp [drawChain]
  | cons step steps ih =>
      simp only [drawChain, ih, drawStep_known, List.mem_cons, List.map_cons]
      tauto

theorem mem_drawGraph_known
    {p : Progress} {graph : ChainGraph} {rank : Nat} {incoming : Frontier}
    {id : String} :
    id ∈ (p.drawGraph graph rank incoming).known ↔
      id ∈ p.known ∨ id ∈ graph.stepIds := by
  unfold drawGraph ChainGraph.stepIds
  induction graph.heads generalizing p with
  | nil => simp
  | cons head heads ih =>
      simp only [List.foldl_cons, ih, mem_drawChain_known,
        List.flatMap_cons, List.mem_append, or_assoc]

/-! ## Where a subscriber graph hangs -/

theorem lookup_eq_none_iff_notMem {p : Progress} {id : String} :
    p.landings.lookup id = none ↔ id ∉ p.known := by
  rw [List.lookup_eq_none_iff]
  constructor
  · intro hnone hknown
    obtain ⟨entry, hentry, rfl⟩ := List.mem_map.mp hknown
    simpa using hnone entry hentry
  · intro hunknown entry hentry
    have hne : id ≠ entry.1 := by
      rintro rfl
      exact hunknown (List.mem_map_of_mem hentry)
    simpa using hne

/-- The steps of a key are looked up one by one; the first that is not known
ends the search. -/
theorem sources_cases (p : Progress) (parts : List String) :
    ((∀ part ∈ parts, part ∈ p.known) ∧
        ∃ result, p.sources parts = .ok result) ∨
      ∃ before part after, parts = before ++ part :: after ∧
        (∀ part ∈ before, part ∈ p.known) ∧ part ∉ p.known ∧
        p.sources parts = .error part := by
  induction parts with
  | nil => exact Or.inl ⟨by simp, _, rfl⟩
  | cons part parts ih =>
      cases hlookup : p.landings.lookup part with
      | none =>
          refine Or.inr ⟨[], part, parts, rfl, by simp, ?_, ?_⟩
          · exact lookup_eq_none_iff_notMem.mp hlookup
          · simp [sources, hlookup]
      | some landing =>
          have hpart : part ∈ p.known := by
            by_contra hunknown
            rw [lookup_eq_none_iff_notMem.mpr hunknown] at hlookup
            cases hlookup
          rcases ih with ⟨hall, result, hok⟩ |
            ⟨before, missing, after, rfl, hbefore, hmissing, herror⟩
          · refine Or.inl ⟨?_, ?_⟩
            · simpa [hpart] using hall
            · simp [sources, hlookup, hok, Except.map]
          · refine Or.inr
              ⟨part :: before, missing, after, rfl, ?_, hmissing, ?_⟩
            · simpa [hpart] using hbefore
            · simp [sources, hlookup, herror, Except.map]

theorem exists_sourcesOfKey_eq_ok_iff {p : Progress} {key : String} :
    (∃ result, p.sourcesOfKey key = .ok result) ↔ Ready p.known key := by
  unfold sourcesOfKey
  by_cases hkey : keyParts key = []
  · simp [hkey, Ready]
  · have hparts := p.sources_cases (keyParts key)
    rcases hparts with ⟨hall, result, hok⟩ |
      ⟨before, part, after, hsplit, -, hmissing, herror⟩
    · simpa [hkey, hok, Ready] using hall
    · have hmem : part ∈ keyParts key := by simp [hsplit]
      have hnot : ¬Ready p.known key := fun h => hmissing (h.2 part hmem)
      simp [hkey, herror, hnot]

/-! ## Runs -/

/-- The graphs in the list are drawn one after the other, each behind the ends
that its key names when its turn comes. -/
inductive Draws : Progress → List Subscriber → Progress → Prop
  | nil {p} : Draws p [] p
  | cons {p key graph incoming rank order p'}
      (ready : p.sourcesOfKey key = .ok (incoming, rank))
      (rest : Draws (p.drawGraph graph rank incoming) order p') :
      Draws p ((key, graph) :: order) p'

theorem Draws.append
    {p p' p'' : Progress} {order later : List Subscriber}
    (h : Draws p order p') (h' : Draws p' later p'') :
    Draws p (order ++ later) p'' := by
  induction h with
  | nil => exact h'
  | cons ready rest ih => exact .cons ready (ih h')

/-- The drawn steps are those of the list. -/
def Knows (p : Progress) (ids : List String) : Prop :=
  ∀ id, id ∈ p.known ↔ id ∈ ids

theorem Knows.ready_iff
    {p : Progress} {ids : List String} (h : p.Knows ids) {key : String} :
    Ready p.known key ↔ Ready ids key := by
  simp only [Ready, h _]

theorem Knows.drawGraph
    {p : Progress} {ids : List String} (h : p.Knows ids)
    (graph : ChainGraph) (rank : Nat) (incoming : Frontier) :
    (p.drawGraph graph rank incoming).Knows (ids ++ graph.stepIds) := by
  intro id
  rw [mem_drawGraph_known, h id, List.mem_append]

theorem Knows.draws
    {p p' : Progress} {ids : List String} {order : List Subscriber}
    (h : p.Knows ids) (hdraws : Draws p order p') :
    p'.Knows (ids ++ gained order) := by
  induction hdraws generalizing ids with
  | nil => simpa [gained] using h
  | cons ready rest ih =>
      simpa [gained] using ih (h.drawGraph _ _ _)

/-- A sweep is a run over the graphs that the schedule takes. -/
theorem sweep_spec
    {p : Progress} {ids : List String} (h : p.Knows ids)
    (pending : List Subscriber) :
    (p.sweep pending).1 = (Schedule.sweep ids pending).waiting ∧
      Draws p (Schedule.sweep ids pending).drawn (p.sweep pending).2 := by
  induction pending generalizing p ids with
  | nil => exact ⟨rfl, .nil⟩
  | cons s pending ih =>
      obtain ⟨key, graph⟩ := s
      by_cases hready : Ready ids key
      · obtain ⟨⟨incoming, rank⟩, hok⟩ :=
          exists_sourcesOfKey_eq_ok_iff.mpr (h.ready_iff.mpr hready)
        obtain ⟨hwaiting, hdraws⟩ := ih (h.drawGraph graph rank incoming)
        simp only [sweep, Schedule.sweep, hok, if_pos hready]
        exact ⟨hwaiting, .cons hok hdraws⟩
      · cases hsources : p.sourcesOfKey key with
        | ok result =>
            exact absurd (h.ready_iff.mp
              (exists_sourcesOfKey_eq_ok_iff.mp ⟨result, hsources⟩)) hready
        | error stepId =>
            obtain ⟨hwaiting, hdraws⟩ := ih h
            simp only [sweep, Schedule.sweep, hsources, if_neg hready]
            exact ⟨by rw [hwaiting], hdraws⟩

/-- Settling is a run over the graphs of the schedule, and it fails on the
first graph that the schedule leaves waiting. -/
theorem settle_spec (ids : List String) (pending : List Subscriber) :
    ∀ p : Progress, p.Knows ids →
      ∃ p', Draws p (Schedule.settle ids pending).drawn p' ∧
        p.settle pending =
          match (Schedule.settle ids pending).waiting with
          | [] => .ok p'
          | s :: _ => .error (p'.waitingError s.1) := by
  induction ids, pending using Schedule.settle.induct with
  | case1 ids pending round hprogress ih =>
      intro p h
      obtain ⟨hwaiting, hdraws⟩ := sweep_spec h pending
      obtain ⟨p', hlater, hsettle⟩ := ih _ (h.draws hdraws)
      refine ⟨p', ?_, ?_⟩
      · rw [Schedule.settle, dif_pos hprogress]
        exact hdraws.append hlater
      · cases pending with
        | nil => simp at hprogress
        | cons s pending =>
            rw [settle, Schedule.settle, dif_pos hprogress]
            simp only [hwaiting]
            rw [dif_pos hprogress]
            exact hsettle
  | case2 ids pending round hstuck =>
      intro p h
      obtain ⟨hwaiting, -⟩ := sweep_spec h pending
      rw [Schedule.settle, dif_neg hstuck]
      refine ⟨p, .nil, ?_⟩
      cases pending with
      | nil => rw [settle]
      | cons s pending =>
          rw [settle]
          simp only [hwaiting]
          rw [dif_neg hstuck]

end Flowchart.Progress
