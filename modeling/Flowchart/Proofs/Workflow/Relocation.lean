import Flowchart.Proofs.Matching
import Flowchart.Proofs.Workflow.Outline

/-!
# Graphs drawn alone

A graph is always drawn the same way.  Only where its nodes stand, how great its
ranks are, and what its heads hang off depends on what was drawn before it.  So
drawing a graph adds the occurrences of the graph drawn alone, each moved behind
what is there.
-/

namespace Flowchart

/-! ## Moving -/

/-- The occurrences of steps in a graph that hangs nowhere. -/
def ChainGraph.occurrences (graph : ChainGraph) : Occurrences :=
  Occurrences.addGraph [] graph 0 []

theorem Gadget.exit_add (n m : Nat) (gadget : Gadget) :
    gadget.exit (n + m) = n + gadget.exit m := by
  cases gadget <;> simp [exit, Nat.add_assoc]

theorem Gadget.mem_arcs_add_iff
    {n m : Nat} {gadget : Gadget} {arc : Nat × Nat} :
    arc ∈ gadget.arcs (n + m) ↔
      ∃ arc' ∈ gadget.arcs m, arc = (n + arc'.1, n + arc'.2) := by
  cases gadget <;> simp [arcs, Nat.add_assoc]

/-- The occurrence in a graph that is drawn behind `n` nodes, from a rank on,
and hangs off the sources. -/
def Occurrence.behind (n rank : Nat) (sources : List Nat) (o : Occurrence) :
    Occurrence where
  step := o.step
  rank := rank + o.rank
  first := n + o.first
  sources := if o.rank = 0 then sources else o.sources.map (n + ·)

theorem Occurrence.exit_behind
    (n rank : Nat) (sources : List Nat) (o : Occurrence) :
    (o.behind n rank sources).exit = n + o.exit :=
  Gadget.exit_add n o.first o.step.gadget

namespace Occurrences

theorem nodeCount_append (drawn later : Occurrences) :
    nodeCount (drawn ++ later) = drawn.nodeCount + later.nodeCount := by
  simp [nodeCount]

theorem nodeCount_map_behind
    (n rank : Nat) (sources : List Nat) (drawn : Occurrences) :
    nodeCount (drawn.map (Occurrence.behind n rank sources)) =
      drawn.nodeCount := by
  simp [nodeCount, Occurrence.behind, Function.comp_def]

theorem addChain_behind
    (drawn inner : Occurrences) (rank offset : Nat) (sources ins : List Nat)
    (steps : List ChainStep) :
    addChain (rank + offset)
        (if offset = 0 then sources else ins.map (drawn.nodeCount + ·)) steps
        (drawn ++ inner.map (.behind drawn.nodeCount rank sources)) =
      drawn ++ (inner.addChain offset ins steps).map
        (.behind drawn.nodeCount rank sources) := by
  induction steps generalizing inner offset ins with
  | nil => rfl
  | cons step steps ih =>
      let o := inner.nextOccurrence step offset ins
      have hnext : nextOccurrence
          (drawn ++ inner.map (.behind drawn.nodeCount rank sources)) step
          (rank + offset)
          (if offset = 0 then sources else ins.map (drawn.nodeCount + ·)) =
          o.behind drawn.nodeCount rank sources := by
        simp only [nextOccurrence, nodeCount_append, nodeCount_map_behind,
          Occurrence.behind, o]
      have hlater := ih (inner ++ [o]) (offset + 1) [o.exit]
      rw [if_neg (Nat.succ_ne_zero offset), List.map_append,
        ← List.append_assoc] at hlater
      simp only [addChain, hnext, Occurrence.exit_behind]
      exact hlater

/-- A graph is drawn as it would be drawn alone, behind what is there. -/
theorem addGraph_eq
    (drawn : Occurrences) (graph : ChainGraph) (rank : Nat)
    (sources : List Nat) :
    drawn.addGraph graph rank sources =
      drawn ++ graph.occurrences.map
        (.behind drawn.nodeCount rank sources) := by
  have hheads : ∀ (heads : List ChainStep) (inner : Occurrences),
      heads.foldl
          (fun drawn head => drawn.addChain rank sources (graph.chain head))
          (drawn ++ inner.map (.behind drawn.nodeCount rank sources)) =
        drawn ++ (heads.foldl
          (fun inner head => inner.addChain 0 [] (graph.chain head))
          inner).map (.behind drawn.nodeCount rank sources) := by
    intro heads
    induction heads with
    | nil => exact fun inner => rfl
    | cons head heads ih =>
        intro inner
        have hchain :=
          addChain_behind drawn inner rank 0 sources [] (graph.chain head)
        rw [Nat.add_zero, if_pos rfl] at hchain
        rw [List.foldl_cons, hchain, ih, List.foldl_cons]
  have hgraph := hheads graph.heads []
  rw [List.map_nil, List.append_nil] at hgraph
  exact hgraph

theorem addChain_steps
    (drawn : Occurrences) (rank : Nat) (sources : List Nat)
    (steps : List ChainStep) :
    (drawn.addChain rank sources steps).map Occurrence.step =
      drawn.map Occurrence.step ++ steps := by
  induction steps generalizing drawn rank sources with
  | nil => simp [addChain]
  | cons step steps ih => simp [addChain, ih, nextOccurrence]

end Occurrences

namespace ChainGraph

theorem occurrences_steps (graph : ChainGraph) :
    graph.occurrences.map Occurrence.step =
      graph.heads.flatMap graph.chain := by
  have hheads : ∀ (heads : List ChainStep) (drawn : Occurrences),
      (heads.foldl
          (fun drawn head => drawn.addChain 0 [] (graph.chain head))
          drawn).map Occurrence.step =
        drawn.map Occurrence.step ++ heads.flatMap graph.chain := by
    intro heads
    induction heads with
    | nil => simp
    | cons head heads ih => simp [ih, Occurrences.addChain_steps]
  exact hheads graph.heads []

theorem mem_stepIds_iff {graph : ChainGraph} {stepId : String} :
    stepId ∈ graph.stepIds ↔ ∃ o ∈ graph.occurrences, o.step.id = stepId := by
  have hids : graph.stepIds =
      graph.occurrences.map fun o => o.step.id := by
    rw [stepIds, ← List.map_flatMap, ← occurrences_steps, List.map_map]
    rfl
  rw [hids, List.mem_map]

theorem occurrences_numbered (graph : ChainGraph) :
    graph.occurrences.Numbered :=
  Occurrences.Numbered.nil.addGraph (by simp) (fun _ => rfl) graph

/-- The gadget of an occurrence lies within its graph. -/
theorem bounds_of_mem
    {graph : ChainGraph} {o : Occurrence} (ho : o ∈ graph.occurrences) :
    o.first < graph.occurrences.nodeCount ∧
      o.exit < graph.occurrences.nodeCount := by
  have hnext := graph.occurrences_numbered.below o ho
  have hexit := Gadget.exit_bounds o.first o.step.gadget
  unfold Occurrence.next at hnext
  unfold Occurrence.exit
  omega

end ChainGraph

namespace Occurrences

theorem latest?_append (drawn later : Occurrences) (stepId : String) :
    latest? (drawn ++ later) stepId =
      (later.latest? stepId).or (drawn.latest? stepId) := by
  simp [latest?, List.find?_append]

theorem latest?_map_behind
    (n rank : Nat) (sources : List Nat) (drawn : Occurrences)
    (stepId : String) :
    latest? (drawn.map (Occurrence.behind n rank sources)) stepId =
      (drawn.latest? stepId).map (Occurrence.behind n rank sources) := by
  rw [latest?, ← List.map_reverse, List.find?_map]
  rfl

theorem step_id_of_latest?_eq_some
    {drawn : Occurrences} {stepId : String} {o : Occurrence}
    (h : drawn.latest? stepId = some o) : o ∈ drawn ∧ o.step.id = stepId := by
  have hmem := List.mem_of_find?_eq_some h
  have hid := List.find?_some h
  exact ⟨List.mem_reverse.mp hmem, beq_iff_eq.mp hid⟩

theorem latest?_isSome_iff {drawn : Occurrences} {stepId : String} :
    (drawn.latest? stepId).isSome ↔ ∃ o ∈ drawn, o.step.id = stepId := by
  simp [latest?, List.find?_isSome]

/-- There is one source for each step that a key names. -/
theorem map_latest?_eq_map_some
    {drawn sources : Occurrences} {parts : List String}
    (h : parts.mapM drawn.latest? = some sources) :
    parts.map drawn.latest? = sources.map some := by
  induction parts generalizing sources with
  | nil =>
      cases h
      rfl
  | cons part parts ih =>
      simp only [List.mapM_cons, Option.bind_eq_bind, Option.bind_eq_some_iff,
        Option.pure_def, Option.some.injEq] at h
      obtain ⟨o, hlatest, rest, hrest, rfl⟩ := h
      rw [List.map_cons, List.map_cons, hlatest, ih hrest]

/-- The arcs of a graph are moved with its nodes, and the heads are joined from
the sources. -/
theorem mem_arcs_addGraph_iff
    {drawn : Occurrences} {graph : ChainGraph} {rank : Nat}
    {sources : List Nat} {i j : Nat} :
    (i, j) ∈ (drawn.addGraph graph rank sources).arcs ↔
      (i, j) ∈ drawn.arcs ∨
      (∃ arc ∈ graph.occurrences.arcs,
        i = drawn.nodeCount + arc.1 ∧ j = drawn.nodeCount + arc.2) ∨
      (i ∈ sources ∧ ∃ head ∈ graph.occurrences, head.rank = 0 ∧
        j = drawn.nodeCount + head.first) := by
  have hmoved : (i, j) ∈ arcs (graph.occurrences.map
      (.behind drawn.nodeCount rank sources)) ↔
      (∃ arc ∈ graph.occurrences.arcs,
        i = drawn.nodeCount + arc.1 ∧ j = drawn.nodeCount + arc.2) ∨
      (i ∈ sources ∧ ∃ head ∈ graph.occurrences, head.rank = 0 ∧
        j = drawn.nodeCount + head.first) := by
    simp only [mem_arcs_iff, List.mem_map, exists_exists_and_eq_and,
      Occurrence.behind, Gadget.mem_arcs_add_iff, Prod.mk.injEq]
    constructor
    · rintro ⟨o, ho, ⟨hsource, rfl⟩ | ⟨arc, harc, rfl, rfl⟩⟩
      · by_cases hrank : o.rank = 0
        · rw [if_pos hrank] at hsource
          exact Or.inr ⟨hsource, o, ho, hrank, rfl⟩
        · rw [if_neg hrank] at hsource
          obtain ⟨source, hmem, rfl⟩ := List.mem_map.mp hsource
          exact Or.inl
            ⟨(source, o.first), ⟨o, ho, Or.inl ⟨hmem, rfl⟩⟩, rfl, rfl⟩
      · exact Or.inl ⟨arc, ⟨o, ho, Or.inr harc⟩, rfl, rfl⟩
    · rintro (⟨arc, ⟨o, ho, ⟨hsource, hfirst⟩ | harc⟩, rfl, rfl⟩ |
        ⟨hsource, head, hhead, hrank, rfl⟩)
      · have hrank : o.rank ≠ 0 := by
          intro hrank
          rw [graph.occurrences_numbered.start o ho hrank] at hsource
          cases hsource
        refine ⟨o, ho, Or.inl ⟨?_, by rw [hfirst]⟩⟩
        rw [if_neg hrank]
        exact List.mem_map_of_mem hsource
      · exact ⟨o, ho, Or.inr ⟨arc, harc, rfl, rfl⟩⟩
      · exact ⟨head, hhead, Or.inl ⟨by rwa [if_pos hrank], rfl⟩⟩
  rw [addGraph_eq, ← hmoved]
  simp only [arcs, List.flatMap_append, List.mem_append]

end Occurrences

/-! ## Faces -/

theorem ChainStep.cards_map_face (rank rank' : Nat) (step : ChainStep) :
    (step.cards rank).map Card.face = (step.cards rank').map Card.face := by
  unfold cards
  cases step.loopKind <;> cases step.guard <;> rfl

theorem Occurrences.cards_addGraph_map_face
    (drawn : Occurrences) (graph : ChainGraph) (rank : Nat)
    (sources : List Nat) :
    (drawn.addGraph graph rank sources).cards.map Card.face =
      drawn.cards.map Card.face ++ graph.occurrences.cards.map Card.face := by
  simp only [addGraph_eq, cards, List.flatMap_append, List.map_append,
    List.flatMap_map, List.map_flatMap]
  congr 2
  funext o
  exact o.step.cards_map_face _ _

end Flowchart
