import Flowchart.Proofs.Naming
import Flowchart.Proofs.Workflow.Wiring

/-!
# Naming the nodes of chained workflows

In a chained workflow the id of a node is claimed right before the node is
drawn.  So the nodes are named in the order of their cards.
-/

namespace Flowchart

open Names Outline

/-! ## Single nodes and gadgets -/

namespace Builder

/-- Between the two builders, the nodes of the cards are named and drawn one
after the other. -/
structure NamesInOrder (b b' : Builder) (cards : List Card) : Prop where
  claimed : HandsOut b b' cards
  nodeIds : b'.nodeIds = b.nodeIds ++ givenNames b.claimed cards

theorem NamesInOrder.trans
    {b b' b'' : Builder} {cards others : List Card}
    (h : NamesInOrder b b' cards) (h' : NamesInOrder b' b'' others) :
    NamesInOrder b b'' (cards ++ others) where
  claimed := h.claimed.trans h'.claimed
  nodeIds := by
    rw [h'.nodeIds, h.nodeIds, h.claimed, givenNames_append,
      List.append_assoc]

theorem claim_push_namesInOrder
    (b : Builder) (declared : String) (rank : Nat) (kind : NodeKind)
    (payload : Payload) (incoming : Frontier) (entered : String) {card : Card}
    (hdeclared : card.baseId = declared) (hrank : card.rank = rank) :
    NamesInOrder b
      (((b.claim declared rank).2.push (b.claim declared rank).1 kind
        payload).connectAll incoming
          [⟨(b.claim declared rank).1, entered⟩]) [card] := by
  subst hdeclared hrank
  constructor
  · rw [HandsOut, connectAll_claimed]
    rfl
  · simp [nodeIds, push_nodes, givenNames, claim]

theorem pushCondition_namesInOrder
    (b : Builder) (step : ChainStep) (rank : Nat) (role : Role)
    (label : String) (conditions : List Condition) (incoming : Frontier) :
    NamesInOrder b
      (b.pushCondition step rank role label conditions incoming).2
      [.beside rank step role .condition label conditions] :=
  claim_push_namesInOrder b _ rank .condition _ incoming step.id rfl rfl

theorem pushStep_namesInOrder
    (b : Builder) (step : ChainStep) (rank : Nat) (incoming : Frontier) :
    NamesInOrder b
      ((b.pushStep step rank).2.connectAll incoming [(b.pushStep step rank).1])
      [.ofChainStep rank step] :=
  claim_push_namesInOrder b _ rank .standard _ incoming step.id rfl rfl

theorem pushOutcome_namesInOrder
    (b : Builder) (step : ChainStep) (rank : Nat) (outcome : LoopOutcome)
    (condition : Tail) :
    NamesInOrder b (b.pushOutcome step rank outcome condition).2
      [.ofOutcome rank step outcome] := by
  cases outcome with
  | again =>
      exact claim_push_namesInOrder b _ rank .loopResult _ [condition] step.id
        rfl rfl
  | finished =>
      exact claim_push_namesInOrder b _ rank .loopResult _ [condition] step.id
        rfl rfl

theorem drawPlain_namesInOrder
    (b : Builder) (step : ChainStep) (rank : Nat) (incoming : Frontier)
    (hloop : step.loopKind = none) :
    NamesInOrder b (b.drawPlain step rank incoming).2 (step.cards rank) := by
  unfold drawPlain ChainStep.cards
  rw [hloop]
  cases step.guard with
  | none => exact pushStep_namesInOrder b step rank incoming
  | some group =>
      let guarded := b.pushCondition step rank .guard
        ConditionKind.whenKind.word (Condition.ofGroup .whenKind group) incoming
      let point : Tail :=
        ⟨guarded.1, (Frontier.lastStepId? incoming).getD guarded.1⟩
      exact (pushCondition_namesInOrder b step rank .guard _ _ incoming).trans
        (pushStep_namesInOrder guarded.2 step rank [point])

theorem drawLoop_namesInOrder
    (b : Builder) (step : ChainStep) (kind : LoopKind) (rank : Nat)
    (incoming : Frontier) (hloop : step.loopKind = some kind) :
    NamesInOrder b (b.drawLoop step kind.conditionKind rank incoming).2
      (step.cards rank) := by
  unfold ChainStep.cards
  rw [hloop]
  let loop := b.pushCondition step rank .loop
    (step.loopLabel.getD kind.conditionKind.word)
    ((step.guard.map (Condition.ofGroup kind.conditionKind)).getD []) incoming
  let condition : Tail := ⟨loop.1, step.id⟩
  let again := loop.2.pushOutcome step rank .again condition
  let rerun := again.2.pushStep step rank
  let rejoined := rerun.2.connectAll [again.1] [rerun.1]
  exact (pushCondition_namesInOrder b step rank .loop _ _ incoming).trans
    ((pushOutcome_namesInOrder loop.2 step rank .again condition).trans
      ((pushStep_namesInOrder again.2 step rank [again.1]).trans
        (pushOutcome_namesInOrder rejoined step rank .finished condition)))

end Builder

/-! ## Chains and graphs -/

namespace Progress

open Builder (NamesInOrder)

theorem drawStep_namesInOrder
    (p : Progress) (step : ChainStep) (rank : Nat) (incoming : Frontier) :
    NamesInOrder p.builder (p.drawStep step rank incoming).2.builder
      (step.cards rank) := by
  unfold drawStep
  cases hloop : step.loopKind with
  | none =>
      exact p.builder.drawPlain_namesInOrder step rank incoming hloop
  | some kind =>
      exact p.builder.drawLoop_namesInOrder step kind rank incoming hloop

/-- The nodes that are drawn so far are those of the occurrences, and they are
named in their order. -/
def Named (p : Progress) (drawn : Occurrences) : Prop :=
  NamesInOrder (.empty .standard) p.builder drawn.cards

namespace Named

variable {p : Progress} {drawn : Occurrences}

theorem drawStep
    (h : p.Named drawn) (step : ChainStep) (rank : Nat) (incoming : Frontier)
    (sources : List Nat) :
    (p.drawStep step rank incoming).2.Named
      (drawn ++ [drawn.nextOccurrence step rank sources]) := by
  have hcards : (drawn ++ [drawn.nextOccurrence step rank sources]).cards =
      drawn.cards ++ step.cards rank := by
    simp [Occurrences.cards, Occurrences.nextOccurrence]
  unfold Named
  rw [hcards]
  exact h.trans (p.drawStep_namesInOrder step rank incoming)

theorem drawChain
    (h : p.Named drawn) (rank : Nat) (incoming : Frontier)
    (sources : List Nat) (steps : List ChainStep) :
    (Progress.drawChain rank incoming steps p).Named
      (drawn.addChain rank sources steps) := by
  induction steps generalizing p drawn rank incoming sources with
  | nil => exact h
  | cons step steps ih => exact ih (h.drawStep step rank incoming sources) _ _ _

theorem drawGraph
    (h : p.Named drawn) (graph : ChainGraph) (rank : Nat)
    (incoming : Frontier) (sources : List Nat) :
    (p.drawGraph graph rank incoming).Named
      (drawn.addGraph graph rank sources) := by
  unfold Progress.drawGraph Occurrences.addGraph
  induction graph.heads generalizing p drawn with
  | nil => exact h
  | cons head heads ih =>
      exact ih (h.drawChain rank incoming sources (graph.chain head))

/-- The ranks in a subscriber graph are those that its outline says, since the
landings are those of the occurrences. -/
theorem draws
    (h : p.Named drawn) {names : List String} (hfollows : Follows names p drawn)
    {order : List Subscriber} {p' : Progress} (hdraws : Draws p order p')
    (hnames : p'.builder.nodeIds <+: names) {drawn' : Occurrences}
    (hdrawn : drawn.addSubscribers order = some drawn') : p'.Named drawn' := by
  induction hdraws generalizing drawn with
  | nil =>
      cases hdrawn
      exact h
  | @cons p key graph incoming rank order p' ready rest ih =>
      unfold sourcesOfKey at ready
      split at ready
      · cases ready
      · obtain ⟨sources, hsources, hincoming, rfl⟩ := hfollows.sources ready
        have hgraph := hfollows.drawGraph hincoming graph
          (rest.grows.nodeIds.trans hnames)
        rw [Occurrences.addSubscribers, hsources, Option.bind_some] at hdrawn
        exact ih (h.drawGraph graph _ incoming _) hgraph hnames hdrawn

end Named

end Progress

/-! ## Diagrams of workflows -/

namespace Diagram

/-- The ids of the nodes follow from the cards alone. -/
theorem ofWorkflow_nodeIds_eq
    {style : EdgeStyle} {w : Workflow} {diagram : Diagram}
    (h : ofWorkflow style w = .ok diagram) :
    ∃ drawn, w.occurrences? = some drawn ∧
      diagram.nodeIds = givenNames [] drawn.cards := by
  obtain ⟨-, p, hdraws, rfl⟩ := Workflow.draws_of_ofWorkflow_eq_ok h
  have hempty : Progress.Follows p.builder.nodeIds
      (.mk (.empty style) []) [] :=
    ⟨.of_eq rfl rfl, .nil⟩
  have hstart := hempty.drawGraph standsAt_nil w.main hdraws.grows.nodeIds
  obtain ⟨drawn, hdrawn, -⟩ := hstart.draws hdraws (List.prefix_refl _)
  have hnone : (Progress.mk (.empty style) []).Named [] := ⟨rfl, rfl⟩
  have hnamed := (hnone.drawGraph w.main 0 [] []).draws hstart hdraws
    (List.prefix_refl _) hdrawn
  refine ⟨drawn, hdrawn, ?_⟩
  rw [Builder.finish_nodeIds]
  exact hnamed.nodeIds

theorem ofWorkflow_namesLeast
    {style : EdgeStyle} {w : Workflow} {diagram : Diagram}
    (h : ofWorkflow style w = .ok diagram) :
    ∃ drawn, w.occurrences? = some drawn ∧ diagram.NamesLeast drawn.cards := by
  obtain ⟨drawn, hdrawn, hnames⟩ := ofWorkflow_nodeIds_eq h
  refine ⟨drawn, hdrawn, ?_⟩
  have hleast := givenNames_least (List.nil_subset diagram.nodeIds)
    (hnames ▸ List.Subset.refl _ : givenNames [] drawn.cards ⊆ diagram.nodeIds)
  rw [← hnames] at hleast
  exact List.forall₂_map_left_iff.mp hleast

end Diagram

end Flowchart
