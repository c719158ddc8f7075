import Flowchart.Proofs.Metadata
import Flowchart.Proofs.Workflow.Sound

/-!
# What the edges of chained workflows remember

The ends that a subscriber graph hangs off are found by the ids of steps, and
these are the ids under which their nodes are left: every landing is the exit of
a step that it is kept for.
-/

namespace Flowchart

namespace Builder

variable {nodes : List Node}

/-! ## Steps -/

theorem pushCondition_agrees
    (step : ChainStep) (rank : Nat) (role : Role) (label : String)
    (conditions : List Condition) (incoming : Frontier) (b : Builder) :
    Agrees nodes incoming [] b
      ([⟨(b.pushCondition step rank role label conditions incoming).1,
          (Frontier.lastStepId? incoming).getD
            (b.pushCondition step rank role label conditions incoming).1⟩],
        (b.pushCondition step rank role label conditions incoming).2) :=
  .of_claims (claims_claim b (role.baseId step.id rank) rank step.id)
    (push_agrees ⟨rfl, fun _ => rfl⟩ rfl)

theorem pushCondition_branches
    (step : ChainStep) (rank : Nat) (role : Role) (label : String)
    (conditions : List Condition) (incoming : Frontier) (b : Builder)
    (hnodes : (b.pushCondition step rank role label conditions
      incoming).2.nodes <+: nodes) (stepId : String) :
    (⟨(b.pushCondition step rank role label conditions incoming).1, stepId⟩ :
      Tail).Branches nodes := by
  have hmem : (⟨(b.pushCondition step rank role label conditions incoming).1,
      .condition, .ofConditions label conditions
        (Frontier.lastStepId? incoming) (some step.id)⟩ : Node) ∈
      (b.pushCondition step rank role label conditions incoming).2.nodes := by
    simp [pushCondition, push_nodes]
  exact ⟨_, hnodes.subset hmem, rfl, rfl⟩

theorem pushStep_agrees
    (step : ChainStep) (rank : Nat) (incoming : Frontier) (b : Builder) :
    Agrees nodes incoming [] b
      ([(b.pushStep step rank).1],
        (b.pushStep step rank).2.connectAll incoming
          [(b.pushStep step rank).1]) :=
  .of_claims (claims_claim b step.id rank step.id)
    (push_agrees ⟨rfl, NodeKind.noConfusion⟩ rfl)

theorem pushOutcome_agrees
    (step : ChainStep) (rank : Nat) (outcome : LoopOutcome) {condition : Tail}
    (hcondition : condition.Branches nodes) (incoming : Frontier)
    (b : Builder) :
    Agrees nodes incoming [] b
      ([(b.pushOutcome step rank outcome condition).1],
        (b.pushOutcome step rank outcome condition).2) := by
  cases outcome with
  | again =>
      exact .of_claims
        (claims_claim b (Role.again.baseId step.id rank) rank step.id)
        (push_outcome_agrees hcondition rfl)
  | finished =>
      exact .of_claims
        (claims_claim b (Role.finished.baseId step.id rank) rank step.id)
        (push_outcome_agrees hcondition rfl)

theorem drawPlain_agrees
    (step : ChainStep) (rank : Nat) (incoming : Frontier) (b : Builder) :
    Agrees nodes incoming [] b
      ([(b.drawPlain step rank incoming).1],
        (b.drawPlain step rank incoming).2) := by
  unfold drawPlain
  cases step.guard with
  | none => exact pushStep_agrees step rank incoming b
  | some group =>
      exact (pushCondition_agrees step rank .guard _ _ incoming b).andThen
        (pushStep_agrees step rank _ _)

theorem drawLoop_agrees
    (step : ChainStep) (kind : ConditionKind) (rank : Nat)
    (incoming : Frontier) (b : Builder) :
    Agrees nodes incoming [] b
      ([(b.drawLoop step kind rank incoming).1],
        (b.drawLoop step kind rank incoming).2) := by
  let loop := b.pushCondition step rank .loop (step.loopLabel.getD kind.word)
    ((step.guard.map (Condition.ofGroup kind)).getD []) incoming
  let condition : Tail := ⟨loop.1, step.id⟩
  let again := loop.2.pushOutcome step rank .again condition
  let rejoined := (again.2.pushStep step rank).2.connectAll [again.1]
    [(again.2.pushStep step rank).1]
  have hlater : Grows loop.2 (b.drawLoop step kind rank incoming).2 :=
    ((pushOutcome_settles step rank .again condition loop.2).andThen
      (pushStep_settles step rank [again.1] again.2)).grows.trans
      (pushOutcome_settles step rank .finished condition rejoined).grows
  refine .of_drawn (drawLoop_settles step kind rank incoming b).grows ?_
  intro hnodes
  have hcondition : condition.Branches nodes :=
    pushCondition_branches step rank .loop _ _ incoming b
      (hlater.nodes.trans hnodes) step.id
  have hagain := fun tails =>
    (pushOutcome_agrees step rank .again hcondition tails loop.2).andThen
      (pushStep_agrees step rank _ _)
  exact (pushCondition_agrees step rank .loop _ _ incoming b).andThen
    ((hagain _).forget.append
      (pushOutcome_agrees step rank .finished hcondition _ rejoined))

end Builder

/-! ## Chains and graphs -/

namespace Progress

variable {nodes : List Node}

theorem drawStep_agrees
    (p : Progress) (step : ChainStep) (rank : Nat) (incoming : Frontier) :
    Builder.Agrees nodes incoming [] p.builder
      ([(p.drawStep step rank incoming).1],
        (p.drawStep step rank incoming).2.builder) := by
  unfold drawStep
  cases step.loopKind with
  | none => exact Builder.drawPlain_agrees step rank incoming p.builder
  | some kind =>
      exact Builder.drawLoop_agrees step kind.conditionKind rank incoming
        p.builder

theorem drawStep_stepId
    (p : Progress) (step : ChainStep) (rank : Nat) (incoming : Frontier) :
    (p.drawStep step rank incoming).1.stepId = step.id := by
  unfold drawStep
  cases step.loopKind with
  | none =>
      simp only [Builder.drawPlain]
      cases step.guard <;> rfl
  | some kind => rfl

/-- What is drawn so far agrees with the nodes of the diagram, and every landing
is left under the id of its step. -/
structure Faithful (nodes : List Node) (p : Progress) : Prop where
  builder : p.builder.Faithful nodes
  landings : ∀ entry ∈ p.landings,
    (⟨entry.2.nodeId, entry.1⟩ : Tail).Leaves nodes

namespace Faithful

variable {p : Progress} {incoming : Frontier}

theorem drawStep
    (h : p.Faithful nodes) (hin : ∀ tail ∈ incoming, tail.Leaves nodes)
    (step : ChainStep) (rank : Nat)
    (hnodes : (p.drawStep step rank incoming).2.builder.nodes <+: nodes) :
    (p.drawStep step rank incoming).2.Faithful nodes ∧
      (p.drawStep step rank incoming).1.Leaves nodes := by
  have hagrees : Builder.Agrees nodes incoming [] p.builder
      ([(p.drawStep step rank incoming).1],
        (p.drawStep step rank incoming).2.builder) :=
    p.drawStep_agrees step rank incoming
  have htip := hagrees.tips hnodes hin _ List.mem_cons_self
  refine ⟨⟨hagrees.faithful hnodes hin h.builder, ?_⟩, htip⟩
  intro entry hentry
  rcases List.mem_cons.mp hentry with rfl | hold
  · rw [← p.drawStep_stepId step rank incoming]
    exact htip
  · exact h.landings entry hold

theorem drawChain
    (h : p.Faithful nodes) (hin : ∀ tail ∈ incoming, tail.Leaves nodes)
    (rank : Nat) (steps : List ChainStep)
    (hnodes : (Progress.drawChain rank incoming steps p).builder.nodes <+:
      nodes) :
    (Progress.drawChain rank incoming steps p).Faithful nodes := by
  induction steps generalizing p incoming rank with
  | nil => exact h
  | cons step steps ih =>
      have hgrows := (p.drawStep step rank incoming).2.drawChain_grows
        (rank + 1) [(p.drawStep step rank incoming).1] steps
      obtain ⟨hstep, htip⟩ :=
        h.drawStep hin step rank (hgrows.nodes.trans hnodes)
      have hin' : ∀ tail ∈ [(p.drawStep step rank incoming).1],
          tail.Leaves nodes :=
        List.forall_mem_singleton.mpr htip
      exact ih hstep hin' (rank + 1) hnodes

theorem drawGraph
    (h : p.Faithful nodes) (hin : ∀ tail ∈ incoming, tail.Leaves nodes)
    (graph : ChainGraph) (rank : Nat)
    (hnodes : (p.drawGraph graph rank incoming).builder.nodes <+: nodes) :
    (p.drawGraph graph rank incoming).Faithful nodes := by
  unfold Progress.drawGraph at hnodes ⊢
  generalize graph.heads = heads at hnodes ⊢
  induction heads generalizing p with
  | nil => exact h
  | cons head heads ih =>
      have hgrows := drawHeads_grows
        (Progress.drawChain rank incoming (graph.chain head) p)
        graph heads rank incoming
      exact ih (h.drawChain hin rank (graph.chain head)
        (hgrows.nodes.trans hnodes)) hnodes

/-- A subscriber graph hangs off ends that are left under the ids which its key
names. -/
theorem sources
    (h : p.Faithful nodes) {parts : List String} {tails : Frontier}
    {rank : Nat} (hsources : p.sources parts = .ok (tails, rank)) :
    ∀ tail ∈ tails, tail.Leaves nodes := by
  induction parts generalizing tails rank with
  | nil =>
      cases hsources
      simp
  | cons part parts ih =>
      cases hlookup : p.landings.lookup part with
      | none => simp [Progress.sources, hlookup] at hsources
      | some landing =>
          simp only [Progress.sources, hlookup] at hsources
          cases hrest : p.sources parts with
          | error stepId => simp [hrest, Except.map] at hsources
          | ok result =>
              simp only [hrest, Except.map, Except.ok.injEq,
                Prod.mk.injEq] at hsources
              obtain ⟨before, after, hsplit, -⟩ :=
                List.lookup_eq_some_iff.mp hlookup
              have hlanding : (⟨landing.nodeId, part⟩ : Tail).Leaves nodes :=
                h.landings (part, landing) (by simp [hsplit])
              rw [← hsources.1]
              exact List.forall_mem_cons.mpr ⟨hlanding, ih hrest⟩

theorem draws
    (h : p.Faithful nodes) {order : List Subscriber} {p' : Progress}
    (hdraws : Draws p order p') (hnodes : p'.builder.nodes <+: nodes) :
    p'.Faithful nodes := by
  induction hdraws with
  | nil => exact h
  | @cons p key graph incoming rank order p' ready rest ih =>
      unfold sourcesOfKey at ready
      split at ready
      · cases ready
      · exact ih (h.drawGraph (h.sources ready) graph rank
          (rest.grows.nodes.trans hnodes)) hnodes

end Faithful

end Progress

namespace Diagram

theorem ofWorkflow_keepsDeclaredIds
    {style : EdgeStyle} {w : Workflow} {diagram : Diagram}
    (h : ofWorkflow style w = .ok diagram) : diagram.KeepsDeclaredIds := by
  obtain ⟨-, p, hdraws, rfl⟩ := Workflow.draws_of_ofWorkflow_eq_ok h
  have hsound := ((w.start_sound style).draws hdraws).builder
  have hempty : (Progress.mk (.empty style) []).Faithful p.builder.nodes :=
    ⟨Builder.faithful_empty _ style, by simp⟩
  have hstart := hempty.drawGraph (by simp) w.main 0 hdraws.grows.nodes
  exact (hstart.draws hdraws (List.prefix_refl _)).builder.keepsDeclaredIds
    hsound.nodeIds_nodup

end Diagram

end Flowchart
