import Flowchart.Proofs.Settling
import Flowchart.Proofs.Workflow.Availability

/-!
# Drawing chained workflows keeps builders sound

Chained workflows claim the id of a node right before they draw the node, so
nothing stays pending between two steps.  What has to be carried along are the
landings: every end that a subscriber graph may hang off is the id of a node.
-/

namespace Flowchart

open Builder (Grows Settles)

/-! ## Steps -/

namespace Builder

theorem pushCondition_settles
    (step : ChainStep) (rank : Nat) (role : Role) (label : String)
    (conditions : List Condition) (incoming : Frontier) (stepId : String)
    (b : Builder) :
    Settles incoming [] b
      ([⟨(b.pushCondition step rank role label conditions incoming).1,
          stepId⟩],
        (b.pushCondition step rank role label conditions incoming).2) :=
  claim_push_settles incoming (role.baseId step.id rank) rank _ _ _ _ b

theorem pushOutcome_settles
    (step : ChainStep) (rank : Nat) (outcome : LoopOutcome) (condition : Tail)
    (b : Builder) :
    Settles [condition] [] b
      ([(b.pushOutcome step rank outcome condition).1],
        (b.pushOutcome step rank outcome condition).2) :=
  claim_push_settles [condition] _ rank _ _ _ _ b

/-- The node of a step is drawn behind one open end. -/
theorem pushStep_settles
    (step : ChainStep) (rank : Nat) (incoming : Frontier) (b : Builder) :
    Settles incoming [] b
      ([(b.pushStep step rank).1],
        (b.pushStep step rank).2.connectAll incoming
          [(b.pushStep step rank).1]) :=
  claim_push_settles incoming step.id rank _ _ _ _ b

theorem drawPlain_settles
    (step : ChainStep) (rank : Nat) (incoming : Frontier) (b : Builder) :
    Settles incoming [] b
      ([(b.drawPlain step rank incoming).1],
        (b.drawPlain step rank incoming).2) := by
  unfold drawPlain
  cases step.guard with
  | none => exact pushStep_settles step rank incoming b
  | some group =>
      exact (pushCondition_settles step rank .guard _ _ incoming _ b).andThen
        (pushStep_settles step rank _ _)

/-- Both ways out of a loop lead on from its condition; the one that runs the
step again ends there. -/
theorem drawLoop_settles
    (step : ChainStep) (kind : ConditionKind) (rank : Nat)
    (incoming : Frontier) (b : Builder) :
    Settles incoming [] b
      ([(b.drawLoop step kind rank incoming).1],
        (b.drawLoop step kind rank incoming).2) := by
  have hcondition := pushCondition_settles step rank .loop
    (step.loopLabel.getD kind.word)
    ((step.guard.map (Condition.ofGroup kind)).getD []) incoming step.id b
  have hagain := fun condition b =>
    (pushOutcome_settles step rank .again condition b).andThen
      (pushStep_settles step rank _ _)
  exact hcondition.andThen
    ((hagain _ _).forget.append (pushOutcome_settles step rank .finished _ _))

end Builder

/-! ## Chains and graphs -/

namespace Progress

theorem drawStep_settles
    (p : Progress) (step : ChainStep) (rank : Nat) (incoming : Frontier) :
    Settles incoming [] p.builder
      ([(p.drawStep step rank incoming).1],
        (p.drawStep step rank incoming).2.builder) := by
  unfold drawStep
  cases step.loopKind with
  | none => exact Builder.drawPlain_settles step rank incoming p.builder
  | some kind =>
      exact Builder.drawLoop_settles step kind.conditionKind rank incoming
        p.builder

theorem drawChain_grows
    (p : Progress) (rank : Nat) (incoming : Frontier)
    (steps : List ChainStep) :
    Grows p.builder (drawChain rank incoming steps p).builder := by
  induction steps generalizing p rank incoming with
  | nil => exact Grows.refl _
  | cons step steps ih =>
      exact (p.drawStep_settles step rank incoming).grows.trans (ih _ _ _)

theorem drawHeads_grows
    (p : Progress) (graph : ChainGraph) (heads : List ChainStep) (rank : Nat)
    (incoming : Frontier) :
    Grows p.builder (heads.foldl (fun p head =>
      p.drawChain rank incoming (graph.chain head)) p).builder := by
  induction heads generalizing p with
  | nil => exact Grows.refl _
  | cons head heads ih =>
      exact (p.drawChain_grows rank incoming (graph.chain head)).trans (ih _)

theorem drawGraph_grows
    (p : Progress) (graph : ChainGraph) (rank : Nat) (incoming : Frontier) :
    Grows p.builder (p.drawGraph graph rank incoming).builder :=
  p.drawHeads_grows graph graph.heads rank incoming

theorem Draws.grows
    {p p' : Progress} {order : List Subscriber} (h : Draws p order p') :
    Grows p.builder p'.builder := by
  induction h with
  | nil => exact Grows.refl _
  | cons ready rest ih => exact (drawGraph_grows _ _ _ _).trans ih

/-- Every claimed id has its node, and every landing is the id of a node. -/
structure Sound (p : Progress) : Prop where
  builder : p.builder.Sound []
  landed : ∀ entry ∈ p.landings, entry.2.nodeId ∈ p.builder.claimed

namespace Sound

variable {p : Progress}

theorem drawStep
    (h : p.Sound) {incoming : Frontier}
    (hin : incoming.nodeIds ⊆ p.builder.claimed)
    (step : ChainStep) (rank : Nat) :
    (p.drawStep step rank incoming).2.Sound ∧
      (p.drawStep step rank incoming).1.nodeId ∈
        (p.drawStep step rank incoming).2.builder.claimed := by
  have hsettles := p.drawStep_settles step rank incoming
  have htip := hsettles.tips [] h.builder hin
  have hclaimed : (p.drawStep step rank incoming).1.nodeId ∈
      (p.drawStep step rank incoming).2.builder.claimed := by
    simpa using htip
  refine ⟨⟨hsettles.sound [] h.builder hin, ?_⟩, hclaimed⟩
  intro entry hentry
  rcases List.mem_cons.mp hentry with rfl | hold
  · exact hclaimed
  · exact hsettles.grows.mem_claimed (h.landed entry hold)

theorem drawChain
    (h : p.Sound) {incoming : Frontier}
    (hin : incoming.nodeIds ⊆ p.builder.claimed)
    (rank : Nat) (steps : List ChainStep) :
    (Progress.drawChain rank incoming steps p).Sound := by
  induction steps generalizing p incoming rank with
  | nil => exact h
  | cons step steps ih =>
      obtain ⟨hstep, htip⟩ := h.drawStep hin step rank
      have hin' : Frontier.nodeIds [(p.drawStep step rank incoming).1] ⊆
          (p.drawStep step rank incoming).2.builder.claimed := by
        simpa using htip
      exact ih hstep hin' (rank + 1)

theorem drawGraph
    (h : p.Sound) {incoming : Frontier}
    (hin : incoming.nodeIds ⊆ p.builder.claimed)
    (graph : ChainGraph) (rank : Nat) :
    (p.drawGraph graph rank incoming).Sound := by
  unfold Progress.drawGraph
  induction graph.heads generalizing p with
  | nil => exact h
  | cons head heads ih =>
      have hgrows := p.drawChain_grows rank incoming (graph.chain head)
      exact ih (h.drawChain hin rank (graph.chain head))
        fun _ hid => hgrows.mem_claimed (hin hid)

theorem sources
    (h : p.Sound) {parts : List String} {tails : Frontier} {rank : Nat}
    (hsources : p.sources parts = .ok (tails, rank)) :
    tails.nodeIds ⊆ p.builder.claimed := by
  induction parts generalizing tails rank with
  | nil =>
      simp only [Progress.sources, Except.ok.injEq, Prod.mk.injEq] at hsources
      rw [← hsources.1]
      exact List.nil_subset _
  | cons part parts ih =>
      cases hlookup : p.landings.lookup part with
      | none => simp [Progress.sources, hlookup] at hsources
      | some landing =>
          cases hrest : p.sources parts with
          | error stepId =>
              simp [Progress.sources, hlookup, hrest, Except.map] at hsources
          | ok result =>
              simp only [Progress.sources, hlookup, hrest, Except.map,
                Except.ok.injEq, Prod.mk.injEq] at hsources
              obtain ⟨before, after, hsplit, -⟩ :=
                List.lookup_eq_some_iff.mp hlookup
              have hlanding : landing.nodeId ∈ p.builder.claimed :=
                h.landed (part, landing) (by simp [hsplit])
              rw [← hsources.1, Frontier.nodeIds_cons]
              exact List.cons_subset.mpr ⟨hlanding, ih hrest⟩

theorem draws
    (h : p.Sound) {order : List Subscriber} {p' : Progress}
    (hdraws : Draws p order p') : p'.Sound := by
  induction hdraws with
  | nil => exact h
  | @cons p key graph incoming rank order p' ready rest ih =>
      unfold sourcesOfKey at ready
      split at ready
      · cases ready
      · exact ih (h.drawGraph (h.sources ready) graph rank)

end Sound

end Progress

theorem Workflow.start_sound (style : EdgeStyle) (w : Workflow) :
    (w.start style).Sound := by
  have hempty : (Progress.mk (Builder.empty style) []).Sound :=
    ⟨Builder.sound_empty style, by simp⟩
  exact hempty.drawGraph (List.nil_subset _) w.main 0

end Flowchart
