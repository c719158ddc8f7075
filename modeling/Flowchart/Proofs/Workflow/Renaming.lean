import Flowchart.Proofs.Matching
import Flowchart.Proofs.Workflow.Wiring

/-!
# Workflows with other step ids

Steps are told apart by their ids and by nothing else.  So if every id is
replaced, and no two ids by the same one, everything is drawn as before: the
same graphs in the same order, behind the same sources, with the new ids as
labels.  What conditions say is not compared, since they mention ids too.
-/

namespace Flowchart

open Progress (keyParts)

variable {rename : String → String}

/-! ## Renamed workflows -/

/-- The same step under its new id. -/
structure ChainStep.Renames (rename : String → String)
    (step renamed : ChainStep) : Prop where
  id : renamed.id = rename step.id
  guard : renamed.guard.isSome = step.guard.isSome
  loopKind : renamed.loopKind = step.loopKind
  loopLabel : renamed.loopLabel = step.loopLabel

/-- The same chains, step by step. -/
def ChainGraph.Renames (rename : String → String)
    (graph renamed : ChainGraph) : Prop :=
  List.Forall₂
    (fun head head' => List.Forall₂ (ChainStep.Renames rename)
      (graph.chain head) (renamed.chain head'))
    graph.heads renamed.heads

/-- The same graph behind a key that names the new ids. -/
structure Subscriber.Renames (rename : String → String)
    (s renamed : Subscriber) : Prop where
  key : keyParts renamed.1 = (keyParts s.1).map rename
  graph : s.2.Renames rename renamed.2

/-- The same workflow with new ids. -/
structure Workflow.Renames (rename : String → String) (w renamed : Workflow) :
    Prop where
  main : w.main.Renames rename renamed.main
  subscribers : List.Forall₂ (Subscriber.Renames rename)
    w.subscribers renamed.subscribers

/-- The same node; if it is the node of a step, it shows the new id. -/
def Node.relabelled (rename : String → String) (node : Node) : Node :=
  if node.kind = .standard then
    { node with payload :=
        { node.payload with label := rename node.payload.label } }
  else node

/-- The same diagram with new ids shown. -/
def Diagram.relabelled (rename : String → String) (diagram : Diagram) :
    Diagram :=
  { diagram with nodes := diagram.nodes.map (Node.relabelled rename) }

/-! ## Steps and occurrences -/

/-- What the node with new ids shows. -/
def relabelledFace (rename : String → String) :
    NodeKind × String → NodeKind × String
  | (.standard, label) => (.standard, rename label)
  | face => face

theorem Node.relabelled_face (rename : String → String) (node : Node) :
    (node.relabelled rename).face = relabelledFace rename node.face := by
  obtain ⟨id, kind, payload⟩ := node
  cases kind <;> rfl

theorem Node.relabelled_id (rename : String → String) (node : Node) :
    (node.relabelled rename).id = node.id := by
  unfold relabelled
  split <;> rfl

namespace ChainStep.Renames

variable {step renamed : ChainStep}

theorem gadget (h : step.Renames rename renamed) :
    renamed.gadget = step.gadget := by
  have hguard := h.guard
  unfold ChainStep.gadget
  rw [h.loopKind]
  cases step.loopKind with
  | some kind => rfl
  | none =>
      cases hstep : step.guard <;> cases hrenamed : renamed.guard <;>
        simp_all

theorem cards (h : step.Renames rename renamed) (rank rank' : Nat) :
    (renamed.cards rank').map Card.face =
      ((step.cards rank).map Card.face).map (relabelledFace rename) := by
  have hguard := h.guard
  unfold ChainStep.cards
  rw [h.loopKind, h.loopLabel]
  cases step.loopKind with
  | some kind =>
      simp [Card.face, Card.beside, Card.ofOutcome, Card.ofChainStep,
        relabelledFace, h.id]
  | none =>
      cases hstep : step.guard <;> cases hrenamed : renamed.guard <;>
        simp_all [Card.face, Card.beside, Card.ofChainStep, relabelledFace,
          h.id]

end ChainStep.Renames

/-- The same occurrence of a renamed step. -/
structure Occurrence.Renames (rename : String → String)
    (o renamed : Occurrence) : Prop where
  step : o.step.Renames rename renamed.step
  rank : renamed.rank = o.rank
  first : renamed.first = o.first
  sources : renamed.sources = o.sources

namespace Occurrence.Renames

variable {o renamed : Occurrence}

theorem exit (h : o.Renames rename renamed) : renamed.exit = o.exit := by
  rw [Occurrence.exit, Occurrence.exit, h.first, h.step.gadget]

theorem arcs (h : o.Renames rename renamed) : renamed.arcs = o.arcs := by
  rw [Occurrence.arcs, Occurrence.arcs, h.first, h.sources, h.step.gadget]

end Occurrence.Renames

/-- The same occurrences of renamed steps. -/
def Occurrences.Renames (rename : String → String)
    (drawn renamed : Occurrences) : Prop :=
  List.Forall₂ (Occurrence.Renames rename) drawn renamed

namespace Occurrences.Renames

variable {drawn drawn' : Occurrences}

theorem nodeCount (h : drawn.Renames rename drawn') :
    drawn'.nodeCount = drawn.nodeCount := by
  unfold Occurrences.nodeCount
  induction h with
  | nil => rfl
  | cons ho _ ih =>
      rw [List.map_cons, List.sum_cons, ih, ho.step.gadget, List.map_cons,
        List.sum_cons]

theorem arcs (h : drawn.Renames rename drawn') : drawn'.arcs = drawn.arcs := by
  unfold Occurrences.arcs
  induction h with
  | nil => rfl
  | cons ho _ ih => rw [List.flatMap_cons, ih, ho.arcs, List.flatMap_cons]

theorem cards (h : drawn.Renames rename drawn') :
    drawn'.cards.map Card.face =
      (drawn.cards.map Card.face).map (relabelledFace rename) := by
  unfold Occurrences.cards
  induction h with
  | nil => rfl
  | @cons o o' _ _ ho _ ih =>
      simp only [List.flatMap_cons, List.map_append, ih,
        ho.step.cards o.rank o'.rank]

theorem concat
    (h : drawn.Renames rename drawn') {step step' : ChainStep}
    (hstep : step.Renames rename step') (rank : Nat) (sources : List Nat) :
    Renames rename (drawn ++ [drawn.nextOccurrence step rank sources])
      (drawn' ++ [drawn'.nextOccurrence step' rank sources]) :=
  List.rel_append h (.cons ⟨hstep, rfl, h.nodeCount, rfl⟩ .nil)

theorem addChain
    (h : drawn.Renames rename drawn') {steps steps' : List ChainStep}
    (hsteps : List.Forall₂ (ChainStep.Renames rename) steps steps')
    (rank : Nat) (sources : List Nat) :
    (drawn.addChain rank sources steps).Renames rename
      (drawn'.addChain rank sources steps') := by
  induction hsteps generalizing drawn drawn' rank sources with
  | nil => exact h
  | @cons step step' steps steps' hstep _ ih =>
      have ho : Occurrence.Renames rename
          (drawn.nextOccurrence step rank sources)
          (drawn'.nextOccurrence step' rank sources) :=
        ⟨hstep, rfl, h.nodeCount, rfl⟩
      rw [Occurrences.addChain, Occurrences.addChain, ho.exit]
      exact ih (h.concat hstep rank sources) (rank + 1) _

theorem addGraph
    (h : drawn.Renames rename drawn') {graph graph' : ChainGraph}
    (hgraph : graph.Renames rename graph') (rank : Nat) (sources : List Nat) :
    (drawn.addGraph graph rank sources).Renames rename
      (drawn'.addGraph graph' rank sources) := by
  unfold ChainGraph.Renames at hgraph
  unfold Occurrences.addGraph
  generalize graph.heads = heads, graph'.heads = heads' at hgraph ⊢
  induction hgraph generalizing drawn drawn' with
  | nil => exact h
  | cons hchain _ ih => exact ih (h.addChain hchain rank sources)

/-- The new ids tell steps apart just as the old ones do. -/
theorem latest?
    (h : drawn.Renames rename drawn') (hrename : rename.Injective)
    {stepId : String} {o : Occurrence} (ho : drawn.latest? stepId = some o) :
    ∃ o', drawn'.latest? (rename stepId) = some o' ∧
      o.Renames rename o' := by
  unfold Occurrences.latest? at ho ⊢
  have hreverse : List.Forall₂ (Occurrence.Renames rename)
      drawn.reverse drawn'.reverse := List.rel_reverse h
  generalize drawn.reverse = recent, drawn'.reverse = recent'
    at ho hreverse ⊢
  induction hreverse with
  | nil => cases ho
  | @cons first first' rest rest' hfirst _ ih =>
      by_cases hid : first.step.id = stepId
      · rw [List.find?_cons_of_pos (by simpa using hid)] at ho
        obtain rfl := Option.some.inj ho
        refine ⟨first', List.find?_cons_of_pos ?_, hfirst⟩
        simp [hfirst.step.id, hid]
      · rw [List.find?_cons_of_neg (by simpa using hid)] at ho
        obtain ⟨o', ho', hrenames⟩ := ih ho
        refine ⟨o', ?_, hrenames⟩
        rw [List.find?_cons_of_neg]
        · exact ho'
        · simpa [hfirst.step.id] using fun heq => hid (hrename heq)

theorem mapM_latest?
    (h : drawn.Renames rename drawn') (hrename : rename.Injective)
    {parts : List String} {sources : Occurrences}
    (hsources : parts.mapM drawn.latest? = some sources) :
    ∃ sources', (parts.map rename).mapM drawn'.latest? = some sources' ∧
      sources.Renames rename sources' := by
  induction parts generalizing sources with
  | nil =>
      cases hsources
      exact ⟨[], rfl, .nil⟩
  | cons part parts ih =>
      simp only [List.mapM_cons, Option.bind_eq_bind, Option.bind_eq_some_iff,
        Option.pure_def, Option.some.injEq] at hsources
      obtain ⟨o, hlatest, rest, hrest, rfl⟩ := hsources
      obtain ⟨o', hlatest', ho⟩ := h.latest? hrename hlatest
      obtain ⟨rest', hrest', hrests⟩ := ih hrest
      exact ⟨o' :: rest', by simp [hlatest', hrest'], .cons ho hrests⟩

theorem exits (h : drawn.Renames rename drawn') :
    drawn'.map Occurrence.exit = drawn.map Occurrence.exit := by
  induction h with
  | nil => rfl
  | cons ho _ ih => rw [List.map_cons, ih, ho.exit, List.map_cons]

theorem rankBehind (h : drawn.Renames rename drawn') :
    drawn'.rankBehind = drawn.rankBehind := by
  unfold Occurrences.rankBehind
  induction h with
  | nil => rfl
  | cons ho _ ih =>
      rw [List.map_cons, List.foldr_cons, ih, ho.rank, List.map_cons,
        List.foldr_cons]

theorem addSubscribers
    (h : drawn.Renames rename drawn') (hrename : rename.Injective)
    {order order' : List Subscriber}
    (horder : List.Forall₂ (Subscriber.Renames rename) order order')
    {result : Occurrences}
    (hresult : drawn.addSubscribers order = some result) :
    ∃ result', drawn'.addSubscribers order' = some result' ∧
      result.Renames rename result' := by
  induction horder generalizing drawn drawn' with
  | nil =>
      cases hresult
      exact ⟨drawn', rfl, h⟩
  | @cons s s' order order' hs _ ih =>
      obtain ⟨sources, hsources, hrest⟩ := Option.bind_eq_some_iff.mp hresult
      obtain ⟨sources', hsources', hrenames⟩ :=
        h.mapM_latest? hrename hsources
      obtain ⟨result', hresult', hresults⟩ := ih
        (h.addGraph hs.graph (Occurrences.rankBehind sources)
          (sources.map Occurrence.exit)) hrest
      refine ⟨result', Option.bind_eq_some_iff.mpr
        ⟨sources', by rwa [hs.key], ?_⟩, hresults⟩
      rw [hrenames.rankBehind, hrenames.exits]
      exact hresult'

end Occurrences.Renames

/-! ## Schedules -/

theorem ChainGraph.Renames.stepIds
    {graph graph' : ChainGraph} (h : graph.Renames rename graph') :
    graph'.stepIds = graph.stepIds.map rename := by
  have hchain : ∀ {steps steps' : List ChainStep},
      List.Forall₂ (ChainStep.Renames rename) steps steps' →
      steps'.map ChainStep.id = (steps.map ChainStep.id).map rename := by
    intro steps steps' hsteps
    induction hsteps with
    | nil => rfl
    | cons hstep _ ih => simp only [List.map_cons, ih, hstep.id]
  unfold ChainGraph.Renames at h
  unfold ChainGraph.stepIds
  generalize graph.heads = heads, graph'.heads = heads' at h ⊢
  induction h with
  | nil => rfl
  | cons hhead _ ih =>
      rw [List.flatMap_cons, ih, hchain hhead, List.flatMap_cons,
        List.map_append]

/-- The same subscriber graphs are drawn and left waiting. -/
structure Schedule.Renames (rename : String → String)
    (schedule renamed : Schedule) : Prop where
  drawn : List.Forall₂ (Subscriber.Renames rename)
    schedule.drawn renamed.drawn
  waiting : List.Forall₂ (Subscriber.Renames rename)
    schedule.waiting renamed.waiting

namespace Schedule

theorem ready_rename_iff
    (hrename : rename.Injective) {known : List String} {s s' : Subscriber}
    (hs : s.Renames rename s') :
    Ready (known.map rename) s'.1 ↔ Ready known s.1 := by
  simp [Ready, hs.key, hrename.eq_iff]

theorem sweep_renames
    (hrename : rename.Injective) {pending pending' : List Subscriber}
    (h : List.Forall₂ (Subscriber.Renames rename) pending pending')
    (known : List String) :
    (sweep known pending).Renames rename
      (sweep (known.map rename) pending') := by
  induction h generalizing known with
  | nil => exact ⟨.nil, .nil⟩
  | @cons s s' pending pending' hs _ ih =>
      by_cases hready : Ready known s.1
      · have hready' := (ready_rename_iff hrename hs).mpr hready
        have hrest := ih (known ++ s.2.stepIds)
        rw [List.map_append, ← hs.graph.stepIds] at hrest
        simp only [sweep, if_pos hready, if_pos hready']
        exact ⟨.cons hs hrest.drawn, hrest.waiting⟩
      · have hready' := mt (ready_rename_iff hrename hs).mp hready
        have hrest := ih known
        simp only [sweep, if_neg hready, if_neg hready']
        exact ⟨hrest.drawn, .cons hs hrest.waiting⟩

theorem gained_rename
    {order order' : List Subscriber}
    (h : List.Forall₂ (Subscriber.Renames rename) order order') :
    gained order' = (gained order).map rename := by
  unfold gained
  induction h with
  | nil => rfl
  | cons hs _ ih =>
      rw [List.flatMap_cons, ih, hs.graph.stepIds, List.flatMap_cons,
        List.map_append]

theorem settle_of_lt
    {known : List String} {pending : List Subscriber}
    (h : (sweep known pending).waiting.length < pending.length) :
    settle known pending =
      let round := sweep known pending
      let later := settle (known ++ gained round.drawn) round.waiting
      ⟨round.drawn ++ later.drawn, later.waiting⟩ := by
  rw [settle, dif_pos h]

theorem settle_of_not_lt
    {known : List String} {pending : List Subscriber}
    (h : ¬(sweep known pending).waiting.length < pending.length) :
    settle known pending = ⟨[], pending⟩ := by
  rw [settle, dif_neg h]

theorem settle_renames
    (hrename : rename.Injective) (known : List String)
    (pending : List Subscriber) :
    ∀ pending' : List Subscriber,
      List.Forall₂ (Subscriber.Renames rename) pending pending' →
      (settle known pending).Renames rename
        (settle (known.map rename) pending') := by
  induction known, pending using settle.induct with
  | case1 known pending round hprogress ih =>
      intro pending' h
      have hround := sweep_renames hrename h known
      have hprogress' : (sweep (known.map rename) pending').waiting.length <
          pending'.length := by
        rw [← hround.waiting.length_eq, ← h.length_eq]
        exact hprogress
      have hlater := ih _ hround.waiting
      rw [List.map_append, ← gained_rename hround.drawn] at hlater
      rw [settle_of_lt hprogress, settle_of_lt hprogress']
      exact ⟨List.rel_append hround.drawn hlater.drawn, hlater.waiting⟩
  | case2 known pending round hstuck =>
      intro pending' h
      have hround := sweep_renames hrename h known
      have hstuck' : ¬(sweep (known.map rename) pending').waiting.length <
          pending'.length := by
        rw [← hround.waiting.length_eq, ← h.length_eq]
        exact hstuck
      rw [settle_of_not_lt hstuck, settle_of_not_lt hstuck']
      exact ⟨.nil, h⟩

end Schedule

/-! ## Diagrams -/

namespace Workflow.Renames

variable {w w' : Workflow}

theorem schedule (h : w.Renames rename w') (hrename : rename.Injective) :
    w.schedule.Renames rename w'.schedule := by
  unfold Workflow.schedule
  rw [h.main.stepIds]
  exact Schedule.settle_renames hrename _ _ _ h.subscribers

theorem occurrences?
    (h : w.Renames rename w') (hrename : rename.Injective)
    {drawn : Occurrences} (hdrawn : w.occurrences? = some drawn) :
    ∃ drawn', w'.occurrences? = some drawn' ∧ drawn.Renames rename drawn' := by
  have hempty : Occurrences.Renames rename [] [] := .nil
  exact (hempty.addGraph h.main 0 []).addSubscribers hrename
    (h.schedule hrename).drawn hdrawn

end Workflow.Renames

namespace Diagram

theorem linked_relabelled_iff
    {diagram : Diagram} {i j : Fin diagram.nodes.length}
    {i' j' : Fin (diagram.relabelled rename).nodes.length}
    (hi : (i' : Nat) = i) (hj : (j' : Nat) = j) :
    (diagram.relabelled rename).Linked i' j' ↔ diagram.Linked i j := by
  have hid : ∀ (k : Fin diagram.nodes.length)
      (k' : Fin (diagram.relabelled rename).nodes.length), (k' : Nat) = k →
      (diagram.relabelled rename).nodes[k'].id = diagram.nodes[k].id := by
    rintro ⟨k, hlt⟩ ⟨k', hlt'⟩ hk
    obtain rfl : k' = k := hk
    have hnode : (diagram.relabelled rename).nodes[k'] =
        diagram.nodes[k'].relabelled rename := List.getElem_map _
    exact (congrArg Node.id hnode).trans (Node.relabelled_id rename _)
  unfold Linked Edge.Leads
  rw [hid i i' hi, hid j j' hj]
  rfl

/-- With new ids there is a diagram exactly if there was one before, and it is
the same but for the labels. -/
theorem ofWorkflow_renamed
    (style : EdgeStyle) (hrename : rename.Injective) {w w' : Workflow}
    (h : w.Renames rename w') :
    (∃ error error', ofWorkflow style w = .error error ∧
      ofWorkflow style w' = .error error') ∨
    ∃ diagram diagram', ofWorkflow style w = .ok diagram ∧
      ofWorkflow style w' = .ok diagram' ∧
      (diagram.relabelled rename).Isomorphic diagram' := by
  have hwaiting := (h.schedule hrename).waiting
  cases hnone : w.schedule.waiting with
  | cons s waiting =>
      rw [hnone] at hwaiting
      obtain ⟨error, herror⟩ := Workflow.exists_ofWorkflow_eq_error
        (hnone ▸ List.cons_ne_nil s waiting) style
      obtain ⟨error', herror'⟩ := Workflow.exists_ofWorkflow_eq_error
        (w := w') (by rintro hnil; rw [hnil] at hwaiting; cases hwaiting) style
      exact Or.inl ⟨error, error', herror, herror'⟩
  | nil =>
      rw [hnone, List.forall₂_nil_left_iff] at hwaiting
      obtain ⟨diagram, hdiagram⟩ :=
        Workflow.exists_ofWorkflow_eq_ok hnone style
      obtain ⟨diagram', hdiagram'⟩ :=
        Workflow.exists_ofWorkflow_eq_ok hwaiting style
      obtain ⟨drawn, hdrawn, hrealizes⟩ := ofWorkflow_realizes hdiagram
      obtain ⟨drawn', hdrawn', hrealizes'⟩ := ofWorkflow_realizes hdiagram'
      obtain ⟨renamed, hrenamed, hrenames⟩ := h.occurrences? hrename hdrawn
      obtain rfl : drawn' = renamed :=
        Option.some.inj (hdrawn'.symm.trans hrenamed)
      refine Or.inr ⟨diagram, diagram', hdiagram, hdiagram', ?_⟩
      refine isomorphic_of_map_face_eq ?_ ?_
      · have hcards : drawn'.outline.cards.map Card.face =
            (drawn.outline.cards.map Card.face).map (relabelledFace rename) :=
          hrenames.cards
        rw [hrealizes'.map_face, hcards, ← hrealizes.map_face]
        simp [relabelled, Node.relabelled_face, Function.comp_def]
      · intro i j i' j' hi hj
        have harcs : drawn'.outline.arcs = drawn.outline.arcs := hrenames.arcs
        have hlength : (diagram.relabelled rename).nodes.length =
            diagram.nodes.length := by
          simp [relabelled]
        rw [linked_relabelled_iff (i := Fin.cast hlength i)
          (j := Fin.cast hlength j) rfl rfl, hrealizes.linked_iff,
          hrealizes'.linked_iff, harcs, hi, hj]
        rfl

end Diagram

end Flowchart
