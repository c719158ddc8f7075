import Flowchart.Proofs.Workflow.Outline
import Flowchart.Proofs.Workflow.Sound

/-!
# The wiring of chained workflows

The diagram of a workflow realizes the outline of the workflow.  The landings
that a drawing keeps are the exits of the occurrences that are drawn so far, the
most recent first, so a subscriber graph hangs where its outline says.
-/

namespace Flowchart

open Names Outline

/-! ## Single nodes -/

namespace Builder

variable {names : List String} {sources : List Nat} {n : Nat}

theorem pushCondition_traces
    (b : Builder) (step : ChainStep) (rank : Nat) (role : Role)
    (label : String) (conditions : List Condition) {incoming : Frontier}
    (stepId : String) (hn : b.nodes.length = n)
    (hincoming : StandsAt names sources incoming)
    (hnames : (b.pushCondition step rank role label conditions
      incoming).2.nodeIds <+: names) :
    StandsAt names [n]
        [⟨(b.pushCondition step rank role label conditions incoming).1,
          stepId⟩] ∧
      Traces names b
        (b.pushCondition step rank role label conditions incoming).2
        [.beside rank step role .condition label conditions]
        (sources ×ˢ [n]) :=
  claim_push_traces b (role.baseId step.id rank) rank step.id .condition _ hn
    hincoming (fun _ hid => ⟨rfl, rfl, rfl, rfl, rfl, hid⟩) hnames

theorem pushStep_traces
    (b : Builder) (step : ChainStep) (rank : Nat) {incoming : Frontier}
    (hn : b.nodes.length = n)
    (hincoming : StandsAt names sources incoming)
    (hnames : ((b.pushStep step rank).2.connectAll incoming
      [(b.pushStep step rank).1]).nodeIds <+: names) :
    StandsAt names [n] [(b.pushStep step rank).1] ∧
      Traces names b
        ((b.pushStep step rank).2.connectAll incoming
          [(b.pushStep step rank).1])
        [.ofChainStep rank step] (sources ×ˢ [n]) :=
  claim_push_traces b step.id rank step.id .standard _ hn hincoming
    (fun _ hid => ⟨rfl, rfl, rfl, rfl, rfl, hid⟩) hnames

theorem pushOutcome_traces
    (b : Builder) (step : ChainStep) (rank : Nat) (outcome : LoopOutcome)
    (condition : Tail) (hn : b.nodes.length = n)
    (hcondition : StandsAt names sources [condition])
    (hnames : (b.pushOutcome step rank outcome condition).2.nodeIds <+: names) :
    StandsAt names [n] [(b.pushOutcome step rank outcome condition).1] ∧
      Traces names b (b.pushOutcome step rank outcome condition).2
        [.ofOutcome rank step outcome] (sources ×ˢ [n]) := by
  cases outcome with
  | again =>
      exact claim_push_traces b (Role.again.baseId step.id rank) rank step.id
        .loopResult _ hn hcondition
        (fun _ hid => ⟨rfl, rfl, rfl, rfl, rfl, hid⟩) hnames
  | finished =>
      exact claim_push_traces b (Role.finished.baseId step.id rank) rank step.id
        .loopResult _ hn hcondition
        (fun _ hid => ⟨rfl, rfl, rfl, rfl, rfl, hid⟩) hnames

/-! ## Gadgets -/

theorem drawPlain_traces
    (b : Builder) (step : ChainStep) (rank : Nat) {incoming : Frontier}
    (hloop : step.loopKind = none) (hn : b.nodes.length = n)
    (hincoming : StandsAt names sources incoming)
    (hnames : (b.drawPlain step rank incoming).2.nodeIds <+: names) :
    StandsAt names [step.gadget.exit n] [(b.drawPlain step rank incoming).1] ∧
      Traces names b (b.drawPlain step rank incoming).2 (step.cards rank)
        (sources ×ˢ [n] ++ step.gadget.arcs n) := by
  unfold ChainStep.cards ChainStep.gadget
  cases hguard : step.guard with
  | none =>
      simp only [drawPlain, hguard] at hnames ⊢
      rw [hloop]
      obtain ⟨hpoint, hstep⟩ :=
        pushStep_traces b step rank hn hincoming hnames
      exact ⟨hpoint, hstep.rearrange (by simp [Gadget.arcs])⟩
  | some group =>
      simp only [drawPlain, hguard] at hnames ⊢
      rw [hloop]
      let guarded := b.pushCondition step rank .guard
        ConditionKind.whenKind.word (Condition.ofGroup .whenKind group) incoming
      let point : Tail :=
        ⟨guarded.1, (Frontier.lastStepId? incoming).getD guarded.1⟩
      have hgrows := (pushStep_settles step rank [point] guarded.2).grows
      obtain ⟨hpoint, hcondition⟩ := pushCondition_traces b step rank .guard
        _ _ point.stepId hn hincoming (hgrows.nodeIds.trans hnames)
      have hlength := hcondition.nodes_length
      rw [hn] at hlength
      obtain ⟨hexit, hstep⟩ :=
        pushStep_traces guarded.2 step rank hlength hpoint hnames
      exact ⟨hexit, hcondition.trans hstep⟩

/-- Both outcomes stand behind the loop condition, and the chain goes on from
the one that finishes the loop. -/
theorem drawLoop_traces
    (b : Builder) (step : ChainStep) (kind : LoopKind) (rank : Nat)
    {incoming : Frontier} (hloop : step.loopKind = some kind)
    (hn : b.nodes.length = n) (hincoming : StandsAt names sources incoming)
    (hnames : (b.drawLoop step kind.conditionKind rank incoming).2.nodeIds <+:
      names) :
    StandsAt names [step.gadget.exit n]
        [(b.drawLoop step kind.conditionKind rank incoming).1] ∧
      Traces names b (b.drawLoop step kind.conditionKind rank incoming).2
        (step.cards rank) (sources ×ˢ [n] ++ step.gadget.arcs n) := by
  unfold ChainStep.cards ChainStep.gadget
  rw [hloop]
  let loop := b.pushCondition step rank .loop
    (step.loopLabel.getD kind.conditionKind.word)
    ((step.guard.map (Condition.ofGroup kind.conditionKind)).getD []) incoming
  let condition : Tail := ⟨loop.1, step.id⟩
  let again := loop.2.pushOutcome step rank .again condition
  let rerun := again.2.pushStep step rank
  let rejoined := rerun.2.connectAll [again.1] [rerun.1]
  have hfinished : Grows rejoined
      (rejoined.pushOutcome step rank .finished condition).2 :=
    (pushOutcome_settles step rank .finished condition rejoined).grows
  have hrerun : Grows again.2 rejoined :=
    (pushStep_settles step rank [again.1] again.2).grows
  have hagain : Grows loop.2 again.2 :=
    (pushOutcome_settles step rank .again condition loop.2).grows
  have hnames₃ := hfinished.nodeIds.trans hnames
  have hnames₂ := hrerun.nodeIds.trans hnames₃
  have hnames₁ := hagain.nodeIds.trans hnames₂
  obtain ⟨hcondition, htraces₁⟩ := pushCondition_traces b step rank .loop _ _
    step.id hn hincoming hnames₁
  have hlength₁ := htraces₁.nodes_length
  rw [hn] at hlength₁
  obtain ⟨hagain, htraces₂⟩ := pushOutcome_traces loop.2 step rank .again
    condition hlength₁ hcondition hnames₂
  have hlength₂ := htraces₂.nodes_length
  rw [hlength₁] at hlength₂
  obtain ⟨-, htraces₃⟩ := pushStep_traces again.2 step rank hlength₂ hagain
    hnames₃
  have hlength₃ := htraces₃.nodes_length
  rw [hlength₂] at hlength₃
  obtain ⟨hexit, htraces₄⟩ := pushOutcome_traces rejoined step rank .finished
    condition hlength₃ hcondition hnames
  exact ⟨hexit,
    htraces₁.trans (htraces₂.trans (htraces₃.trans htraces₄))⟩

end Builder

/-! ## Chains and graphs -/

namespace Progress

variable {names : List String}

theorem drawStep_traces
    (p : Progress) (step : ChainStep) (rank : Nat) {incoming : Frontier}
    {sources : List Nat} {n : Nat} (hn : p.builder.nodes.length = n)
    (hincoming : StandsAt names sources incoming)
    (hnames : (p.drawStep step rank incoming).2.builder.nodeIds <+: names) :
    StandsAt names [step.gadget.exit n] [(p.drawStep step rank incoming).1] ∧
      Traces names p.builder (p.drawStep step rank incoming).2.builder
        (step.cards rank) (sources ×ˢ [n] ++ step.gadget.arcs n) := by
  unfold drawStep at hnames ⊢
  cases hloop : step.loopKind with
  | none =>
      rw [hloop] at hnames
      exact p.builder.drawPlain_traces step rank hloop hn hincoming hnames
  | some kind =>
      rw [hloop] at hnames
      exact p.builder.drawLoop_traces step kind rank hloop hn hincoming hnames

/-- The landing is the place where the occurrence left its chain. -/
structure Lands (names : List String) (landing : String × Landing)
    (o : Occurrence) : Prop where
  stepId : landing.1 = o.step.id
  node : names[o.exit]? = some landing.2.nodeId
  rank : landing.2.rank = o.rank

/-- The occurrences are drawn and nothing else, and the landings are theirs. -/
structure Follows (names : List String) (p : Progress)
    (drawn : Occurrences) : Prop where
  traces : Traces names (.empty .standard) p.builder drawn.cards drawn.arcs
  landings : List.Forall₂ (Lands names) p.landings drawn.reverse

/-- The first landing of a step is that of its most recent occurrence. -/
theorem exists_find?_of_lookup
    {landings : List (String × Landing)} {recent : List Occurrence}
    (h : List.Forall₂ (Lands names) landings recent) {id : String}
    {landing : Landing} (hlookup : landings.lookup id = some landing) :
    ∃ o, (recent.find? fun o => o.step.id == id) = some o ∧
      Lands names (id, landing) o := by
  induction h with
  | nil => cases hlookup
  | @cons entry o landings recent hlands _ ih =>
      by_cases hid : id = entry.1
      · subst hid
        rw [List.lookup_cons_self, Option.some.injEq] at hlookup
        subst hlookup
        exact ⟨o, List.find?_cons_of_pos (by simp [hlands.stepId]), hlands⟩
      · have hne : ¬o.step.id = id := by
          rw [← hlands.stepId]
          exact fun h => hid h.symm
        have hne' : (id == entry.1) = false := by simpa using hid
        rw [List.lookup_cons, hne'] at hlookup
        obtain ⟨o', ho', hlands'⟩ := ih hlookup
        exact ⟨o', by simpa [List.find?_cons, hne] using ho', hlands'⟩

namespace Follows

variable {p : Progress} {drawn : Occurrences} {incoming : Frontier}
  {ins : List Nat} {rank : Nat}

theorem nodes_length (h : Follows names p drawn) :
    p.builder.nodes.length = drawn.nodeCount := by
  rw [h.traces.nodes_length, drawn.cards_length]
  simp [Builder.empty]

theorem drawStep
    (h : Follows names p drawn) (hincoming : StandsAt names ins incoming)
    (step : ChainStep)
    (hnames : (p.drawStep step rank incoming).2.builder.nodeIds <+: names) :
    Follows names (p.drawStep step rank incoming).2
        (drawn ++ [drawn.nextOccurrence step rank ins]) ∧
      StandsAt names [(drawn.nextOccurrence step rank ins).exit]
        [(p.drawStep step rank incoming).1] := by
  obtain ⟨hexit, htraces⟩ :=
    p.drawStep_traces step rank h.nodes_length hincoming hnames
  refine ⟨⟨?_, ?_⟩, hexit⟩
  · simpa [Occurrences.cards, Occurrences.arcs, Occurrence.arcs,
      Occurrences.nextOccurrence] using h.traces.trans htraces
  · rw [List.reverse_append]
    exact .cons ⟨rfl, standsAt_singleton_iff.mp hexit, rfl⟩ h.landings

theorem drawChain
    (h : Follows names p drawn) (hincoming : StandsAt names ins incoming)
    (steps : List ChainStep)
    (hnames : (Progress.drawChain rank incoming steps p).builder.nodeIds <+:
      names) :
    Follows names (Progress.drawChain rank incoming steps p)
      (drawn.addChain rank ins steps) := by
  induction steps generalizing p drawn incoming ins rank with
  | nil => exact h
  | cons step steps ih =>
      have hgrows := (p.drawStep step rank incoming).2.drawChain_grows
        (rank + 1) [(p.drawStep step rank incoming).1] steps
      obtain ⟨hstep, hexit⟩ :=
        h.drawStep hincoming step (hgrows.nodeIds.trans hnames)
      exact ih hstep hexit hnames

theorem drawGraph
    (h : Follows names p drawn) (hincoming : StandsAt names ins incoming)
    (graph : ChainGraph)
    (hnames : (p.drawGraph graph rank incoming).builder.nodeIds <+: names) :
    Follows names (p.drawGraph graph rank incoming)
      (drawn.addGraph graph rank ins) := by
  unfold Progress.drawGraph at hnames ⊢
  unfold Occurrences.addGraph
  generalize graph.heads = heads at hnames ⊢
  induction heads generalizing p drawn with
  | nil => exact h
  | cons head heads ih =>
      have hgrows := drawHeads_grows
        (Progress.drawChain rank incoming (graph.chain head) p)
        graph heads rank incoming
      have hchain := h.drawChain hincoming (graph.chain head)
        (hgrows.nodeIds.trans hnames)
      exact ih hchain hnames

/-- A subscriber graph hangs off the most recent occurrences of the steps that
its key names, behind all of their ranks. -/
theorem sources
    (h : Follows names p drawn) {parts : List String} {tails : Frontier}
    (htails : p.sources parts = .ok (tails, rank)) :
    ∃ sources, parts.mapM drawn.latest? = some sources ∧
      StandsAt names (sources.map Occurrence.exit) tails ∧
      Occurrences.rankBehind sources = rank := by
  induction parts generalizing tails rank with
  | nil =>
      simp only [Progress.sources, Except.ok.injEq, Prod.mk.injEq] at htails
      obtain ⟨rfl, rfl⟩ := htails
      exact ⟨[], rfl, standsAt_nil, rfl⟩
  | cons part parts ih =>
      cases hlookup : p.landings.lookup part with
      | none => simp [Progress.sources, hlookup] at htails
      | some landing =>
          cases hrest : p.sources parts with
          | error stepId =>
              simp [Progress.sources, hlookup, hrest, Except.map] at htails
          | ok result =>
              simp only [Progress.sources, hlookup, hrest, Except.map,
                Except.ok.injEq, Prod.mk.injEq] at htails
              obtain ⟨rfl, rfl⟩ := htails
              obtain ⟨o, hlatest, hlands⟩ : ∃ o,
                  drawn.latest? part = some o ∧
                    Lands names (part, landing) o :=
                exists_find?_of_lookup h.landings hlookup
              obtain ⟨sources, hsources, hstands, hrank⟩ := ih hrest
              refine ⟨o :: sources, ?_, ?_, ?_⟩
              · simp [List.mapM_cons, hlatest, hsources]
              · exact (standsAt_singleton_iff.mpr hlands.node).append hstands
              · simp only [Occurrences.rankBehind, List.map_cons,
                  List.foldr_cons] at hrank ⊢
                rw [hrank, hlands.rank]

theorem draws
    (h : Follows names p drawn) {order : List Subscriber} {p' : Progress}
    (hdraws : Draws p order p') (hnames : p'.builder.nodeIds <+: names) :
    ∃ drawn', drawn.addSubscribers order = some drawn' ∧
      Follows names p' drawn' := by
  induction hdraws generalizing drawn with
  | nil => exact ⟨drawn, rfl, h⟩
  | @cons p key graph incoming rank order p' ready rest ih =>
      unfold sourcesOfKey at ready
      split at ready
      · cases ready
      · obtain ⟨sources, hsources, hincoming, rfl⟩ := h.sources ready
        have hgraph := h.drawGraph hincoming graph
          (rest.grows.nodeIds.trans hnames)
        obtain ⟨drawn', hdrawn', hfollows⟩ := ih hgraph hnames
        exact ⟨drawn', Option.bind_eq_some_iff.mpr ⟨sources, hsources, hdrawn'⟩,
          hfollows⟩

end Follows

end Progress

/-! ## Diagrams of workflows -/

theorem Diagram.ofWorkflow_realizes
    {style : EdgeStyle} {w : Workflow} {diagram : Diagram}
    (h : ofWorkflow style w = .ok diagram) :
    ∃ drawn, w.occurrences? = some drawn ∧ diagram.Realizes drawn.outline := by
  obtain ⟨-, p, hdraws, rfl⟩ := Workflow.draws_of_ofWorkflow_eq_ok h
  have hsound := ((w.start_sound style).draws hdraws).builder
  have hempty : Progress.Follows p.builder.nodeIds
      (.mk (.empty style) []) [] :=
    ⟨.of_eq rfl rfl, .nil⟩
  have hstart := hempty.drawGraph standsAt_nil w.main hdraws.grows.nodeIds
  obtain ⟨drawn, hdrawn, hfollows⟩ :=
    hstart.draws hdraws (List.prefix_refl _)
  refine ⟨drawn, hdrawn, realizes_finish hsound hfollows.traces ?_⟩
  intro arc harc
  have hbounds :=
    (Workflow.occurrences?_numbered hdrawn).arcs_ascending arc harc
  rw [← drawn.cards_length] at hbounds
  exact hbounds.2

/-- The diagram of a workflow realizes the outline that shows the occurrences of
its steps.  So the heads of the main graph, which have rank zero, are not
entered at all; the node of a guarded step is entered from its condition node
only; and the node of a step that is run again is entered from the outcome that
runs it again only, and is never left. -/
theorem ofWorkflow_realizes_outline
    {style : EdgeStyle} {w : Workflow} {diagram : Diagram}
    (h : Diagram.ofWorkflow style w = .ok diagram) :
    ∃ drawn, w.occurrences? = some drawn ∧
    diagram.Realizes drawn.outline ∧
    ∀ o ∈ drawn,
      (o.rank = 0 → ∃ entry,
        diagram.nodeIds[o.first]? = some entry ∧
        diagram.edgesInto entry = []) ∧
      (o.step.gadget = .guarded → ∃ condition step,
        diagram.nodeIds[o.first]? = some condition ∧
        diagram.nodeIds[o.first + 1]? = some step ∧
        (diagram.edgesInto step).map Edge.ends = [(condition, step)]) ∧
      (o.step.gadget = .looped → ∃ again rerun,
        diagram.nodeIds[o.first + 1]? = some again ∧
        diagram.nodeIds[o.first + 2]? = some rerun ∧
        (diagram.edgesInto rerun).map Edge.ends = [(again, rerun)] ∧
        diagram.edgesFrom rerun = []) := by
  obtain ⟨drawn, hdrawn, hrealizes⟩ := Diagram.ofWorkflow_realizes h
  have hnumbered := Workflow.occurrences?_numbered hdrawn
  refine ⟨drawn, hdrawn, hrealizes, fun o ho => ?_⟩
  have hnode : ∀ i < o.next, ∃ id, diagram.nodeIds[i]? = some id := by
    intro i hi
    refine hrealizes.exists_nodeId (lt_of_lt_of_le hi ?_)
    rw [Occurrences.outline, Occurrences.cards_length]
    exact hnumbered.below o ho
  unfold Occurrence.next at hnode
  refine ⟨?_, ?_, ?_⟩
  · intro hrank
    have hexit := Gadget.exit_bounds o.first o.step.gadget
    obtain ⟨entry, hentry⟩ := hnode o.first (by omega)
    exact ⟨entry, hentry, hrealizes.edgesInto_eq_nil hentry
      (hnumbered.arc_into_start ho hrank)⟩
  · intro hgadget
    rw [hgadget, Gadget.nodeCount] at hnode
    obtain ⟨condition, hcondition⟩ := hnode o.first (by omega)
    obtain ⟨step, hstep⟩ := hnode (o.first + 1) (by omega)
    exact ⟨condition, step, hcondition, hstep,
      hrealizes.edgesInto_eq_singleton hcondition hstep
        (hnumbered.arc_into_guarded ho hgadget)⟩
  · intro hgadget
    rw [hgadget, Gadget.nodeCount] at hnode
    obtain ⟨again, hagain⟩ := hnode (o.first + 1) (by omega)
    obtain ⟨rerun, hrerun⟩ := hnode (o.first + 2) (by omega)
    exact ⟨again, rerun, hagain, hrerun,
      hrealizes.edgesInto_eq_singleton hagain hrerun
        (hnumbered.arc_into_rerun ho hgadget),
      hrealizes.edgesFrom_eq_nil hrerun
        (hnumbered.arc_from_rerun ho hgadget)⟩

/-- Two heads that share their followers, a guard, a loop, and subscribers that
unlock each other against the order of their keys. -/
def courierWorkflow : Workflow where
  main :=
    ⟨[⟨"pack", none, none, none, none⟩, ⟨"pack", none, none, none, none⟩],
      [("pack",
        [⟨"retry", none, none, some .untilKind, none⟩,
          ⟨"send", none, some (.text "ready"), none, none⟩])]⟩
  subscribers :=
    [("notify", ⟨[⟨"pack", none, none, none, none⟩], []⟩),
      ("send && retry && send",
        ⟨[⟨"notify", none, some (.text "late"), none, none⟩], []⟩)]

theorem courierWorkflow_realizes_outline :
    ∃ diagram drawn,
      Diagram.ofWorkflow .standard courierWorkflow = .ok diagram ∧
      courierWorkflow.occurrences? = some drawn ∧
      diagram.Realizes drawn.outline ∧
      drawn.map Occurrence.rank = [0, 1, 2, 0, 1, 2, 3, 4] ∧
      drawn.arcs =
        [(0, 1), (1, 2), (2, 3), (1, 4), (4, 5), (5, 6),
          (7, 8), (8, 9), (9, 10), (8, 11), (11, 12), (12, 13),
          (13, 14), (11, 14), (13, 14), (14, 15), (15, 16)] := by
  have hwaiting : courierWorkflow.schedule.waiting = [] :=
    List.isEmpty_iff.mp (by decide +kernel)
  obtain ⟨diagram, hok⟩ := Workflow.exists_ofWorkflow_eq_ok hwaiting .standard
  obtain ⟨drawn, hdrawn, hrealizes, -⟩ := ofWorkflow_realizes_outline hok
  have hranks : courierWorkflow.occurrences?.map (List.map Occurrence.rank) =
      some [0, 1, 2, 0, 1, 2, 3, 4] := by
    decide +kernel
  have harcs : courierWorkflow.occurrences?.map Occurrences.arcs =
      some [(0, 1), (1, 2), (2, 3), (1, 4), (4, 5), (5, 6),
        (7, 8), (8, 9), (9, 10), (8, 11), (11, 12), (12, 13),
        (13, 14), (11, 14), (13, 14), (14, 15), (15, 16)] := by
    decide +kernel
  rw [hdrawn, Option.map_some, Option.some.injEq] at hranks harcs
  exact ⟨diagram, drawn, hok, hdrawn, hrealizes, hranks, harcs⟩

end Flowchart
