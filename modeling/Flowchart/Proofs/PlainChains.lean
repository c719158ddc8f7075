import Flowchart.Diagram.OfWorkflow
import Flowchart.Proofs.Flow.Aligned
import Flowchart.Proofs.Builder

/-!
# Plain chains are flows

A chain of steps without guards and loops is drawn like the flow of these steps,
whatever ids repeat in it.  Chains side by side are drawn like the branches of a
parallel entry, as long as no id repeats: a flow hands out the ids of all heads
first, a workflow those of one chain after the other, so that a repeated id
would be renamed in another place.
-/

namespace Flowchart

open Entry (foldElseAfter foldElseFlow foldElseBranches FlowAligned
  BranchesAligned)

/-! ## Plain steps -/

/-- The step has no guard and is not run again. -/
def ChainStep.IsPlain (step : ChainStep) : Prop :=
  step.guard = none ∧ step.loopKind = none

/-- The step as an entry of a flow. -/
def ChainStep.toEntry (step : ChainStep) : Entry :=
  .step (.plain step.id step.description)

/-- The flow of the steps of a chain. -/
def chainFlow (steps : List ChainStep) : Flow :=
  steps.map ChainStep.toEntry

@[simp] theorem chainFlow_cons (step : ChainStep) (steps : List ChainStep) :
    chainFlow (step :: steps) = step.toEntry :: chainFlow steps := rfl

theorem foldElseAfter_chainFlow (last : ChainStep) (steps : List ChainStep) :
    foldElseAfter last.toEntry (chainFlow steps) =
      chainFlow (last :: steps) := by
  induction steps generalizing last with
  | nil => rfl
  | cons step steps ih =>
      rw [chainFlow_cons, foldElseAfter]
      exact congrArg (last.toEntry :: ·) (ih step)

theorem foldElseFlow_chainFlow (steps : List ChainStep) :
    foldElseFlow (chainFlow steps) = chainFlow steps := by
  cases steps with
  | nil => rfl
  | cons step steps => exact foldElseAfter_chainFlow step steps

theorem foldElseBranches_chainFlow (chains : List (List ChainStep)) :
    foldElseBranches (chains.map chainFlow) = chains.map chainFlow := by
  induction chains with
  | nil => rfl
  | cons chain chains ih =>
      rw [List.map_cons, foldElseBranches, foldElseFlow_chainFlow, ih]

/-- Chains have no branches that could be folded. -/
theorem foldElse_parallel_chainFlow (chains : List (List ChainStep)) :
    Flow.foldElse [.parallel (chains.map chainFlow)] =
      [.parallel (chains.map chainFlow)] :=
  congrArg (fun branches => [Entry.parallel branches])
    (foldElseBranches_chainFlow chains)

theorem chainFlow_aligned (steps : List ChainStep) :
    FlowAligned (chainFlow steps) := by
  induction steps with
  | nil => trivial
  | cons step steps ih => exact ⟨trivial, ih⟩

theorem branchesAligned_chainFlow (chains : List (List ChainStep)) :
    BranchesAligned (chains.map chainFlow) := by
  induction chains with
  | nil => trivial
  | cons chain chains ih => exact ⟨chainFlow_aligned chain, ih⟩

namespace Builder

/-! ## Drawing a step -/

theorem connectAll_of_subset
    {b : Builder} {sources targets : Frontier}
    (hwired : sources.nodeIds ×ˢ targets.nodeIds ⊆ b.ends) :
    b.connectAll sources targets = b := by
  refine connectAll_induction (P := fun b' => b' = b) rfl ?_
  rintro b' source hsource target htarget rfl
  refine connect_of_mem (hwired ?_)
  exact List.mem_product.mpr
    ⟨List.mem_map_of_mem hsource, List.mem_map_of_mem htarget⟩

/-- Asking for the same edges again changes nothing. -/
theorem connectAll_again (b : Builder) (sources targets : Frontier) :
    (b.connectAll sources targets).connectAll sources targets =
      b.connectAll sources targets :=
  connectAll_of_subset fun _ hpair => mem_ends_connectAll.mpr (.inr hpair)

/-- Draws a plain step under an id behind the open ends. -/
def putStep (b : Builder) (id : String) (step : ChainStep)
    (incoming : Frontier) : Builder :=
  (b.push id .standard
    ((Payload.labelled step.id).withDescription step.description)).connectAll
      incoming [⟨id, step.id⟩]

theorem drawFlow_of_entrance
    (rank : Nat) (incoming : Frontier) (id : String) (step : ChainStep)
    (flow : List Entry) (b : Builder) :
    drawFlow rank incoming (some (.node ⟨id, step.id⟩)) (step.toEntry :: flow)
        b =
      drawFlow (rank + 1) [⟨id, step.id⟩] none flow
        (b.putStep id step incoming) := by
  have hdraw : (b.connectAll incoming [⟨id, step.id⟩]).pushPoint incoming
      ⟨id, step.id⟩ .standard (.ofStep (.plain step.id step.description)) =
        b.putStep id step incoming := by
    rw [pushPoint, ← connectAll_push, connectAll_again]
    rfl
  exact congrArg (drawFlow (rank + 1) [⟨id, step.id⟩] none flow) hdraw

theorem drawFlow_step
    (rank : Nat) (incoming : Frontier) (step : ChainStep) (flow : List Entry)
    (b : Builder) :
    drawFlow rank incoming none (step.toEntry :: flow) b =
      drawFlow (rank + 1) [⟨(b.claim step.id rank).1, step.id⟩] none flow
        ((b.claim step.id rank).2.putStep (b.claim step.id rank).1 step
          incoming) :=
  drawFlow_of_entrance rank incoming (b.claim step.id rank).1 step flow
    (b.claim step.id rank).2

end Builder

/-- A plain chain is drawn like its flow. -/
theorem Progress.drawChain_builder
    {steps : List ChainStep} (hplain : ∀ step ∈ steps, step.IsPlain)
    (rank : Nat) (incoming : Frontier) (p : Progress) :
    (p.drawChain rank incoming steps).builder =
      (Builder.drawFlow rank incoming none (chainFlow steps) p.builder).2 := by
  induction steps generalizing rank incoming p with
  | nil => rfl
  | cons step steps ih =>
      obtain ⟨hguard, hloop⟩ := hplain step List.mem_cons_self
      have hstep : p.drawStep step rank incoming =
          (⟨(p.builder.claim step.id rank).1, step.id⟩,
            ⟨(p.builder.claim step.id rank).2.putStep
                (p.builder.claim step.id rank).1 step incoming,
              (step.id, ⟨(p.builder.claim step.id rank).1, rank⟩) ::
                p.landings⟩) := by
        simp only [drawStep, hloop, Builder.drawPlain, hguard]
        rfl
      rw [drawChain, hstep, chainFlow_cons, Builder.drawFlow_step]
      exact ih (fun step hlater => hplain step (List.mem_cons_of_mem _ hlater))
        _ _ _

/-! ## Ids that are free -/

namespace Builder

/-- The same drawing with other ids handed out. -/
def withClaimed (b : Builder) (claimed : List String) : Builder :=
  { b with claimed }

@[simp] theorem withClaimed_withClaimed
    (b : Builder) (claimed claimed' : List String) :
    (b.withClaimed claimed).withClaimed claimed' = b.withClaimed claimed' := rfl

@[simp] theorem finish_withClaimed (b : Builder) (claimed : List String) :
    (b.withClaimed claimed).finish = b.finish := rfl

theorem claim_of_notMem
    {b : Builder} {declared : String} (hfree : declared ∉ b.claimed)
    (rank : Nat) :
    b.claim declared rank =
      (declared, b.withClaimed (declared :: b.claimed)) := by
  simp [claim, Names.nodeId, hfree, withClaimed]

theorem putStep_withClaimed
    (b : Builder) (claimed : List String) (id : String) (step : ChainStep)
    (incoming : Frontier) :
    (b.withClaimed claimed).putStep id step incoming =
      (b.putStep id step incoming).withClaimed claimed :=
  connectAll_comm (f := (withClaimed · claimed)) (fun _ => rfl)
    (fun _ _ _ => rfl) (b.push id .standard _) incoming [⟨id, step.id⟩]

/-- Draws steps one behind the other, each under the id that it declares. -/
def drawDeclared (incoming : Frontier) : List ChainStep → Builder → Builder
  | [], b => b
  | step :: steps, b =>
    drawDeclared [⟨step.id, step.id⟩] steps (b.putStep step.id step incoming)

theorem drawDeclared_withClaimed
    (steps : List ChainStep) (b : Builder) (claimed : List String)
    (incoming : Frontier) :
    drawDeclared incoming steps (b.withClaimed claimed) =
      (drawDeclared incoming steps b).withClaimed claimed := by
  induction steps generalizing incoming b with
  | nil => rfl
  | cons step steps ih =>
      rw [drawDeclared, putStep_withClaimed, ih, drawDeclared]

/-- Ids that do not repeat stay free while those before them are handed out. -/
theorem free_behind
    (ids : List String) {others claimed : List String}
    (hnodup : (ids ++ others).Nodup)
    (hfree : ∀ id ∈ ids ++ others, id ∉ claimed) :
    ∀ id ∈ others, id ∉ ids.reverse ++ claimed := by
  intro id hid hclaimed
  obtain ⟨-, -, hdisjoint⟩ := List.nodup_append.mp hnodup
  rcases List.mem_append.mp hclaimed with hearlier | hold
  · exact hdisjoint id (List.mem_reverse.mp hearlier) id hid rfl
  · exact hfree id (List.mem_append_right _ hid) hold

/-- Steps with free ids keep them. -/
theorem drawFlow_chainFlow
    {steps : List ChainStep} {b : Builder}
    (hnodup : (steps.map ChainStep.id).Nodup)
    (hfree : ∀ id ∈ steps.map ChainStep.id, id ∉ b.claimed)
    (rank : Nat) (incoming : Frontier) :
    (drawFlow rank incoming none (chainFlow steps) b).2 =
      (drawDeclared incoming steps b).withClaimed
        ((steps.map ChainStep.id).reverse ++ b.claimed) := by
  induction steps generalizing rank incoming b with
  | nil => rfl
  | cons step steps ih =>
      have hclaim := claim_of_notMem (hfree step.id List.mem_cons_self) rank
      rw [chainFlow_cons, drawFlow_step, hclaim, putStep_withClaimed,
        ih (List.nodup_cons.mp hnodup).2
          (free_behind [step.id] hnodup hfree),
        drawDeclared_withClaimed]
      simp [drawDeclared, withClaimed]

/-! ## Chains side by side -/

/-- The steps of a chain behind its head find their ids free, while the id of
the head is already handed out. -/
theorem drawFlow_of_head
    (head : ChainStep) {steps : List ChainStep} {b : Builder}
    (hnodup : (steps.map ChainStep.id).Nodup)
    (hfree : ∀ id ∈ steps.map ChainStep.id, id ∉ b.claimed)
    (rank : Nat) (incoming : Frontier) :
    (drawFlow rank incoming (some (.node ⟨head.id, head.id⟩))
        (chainFlow (head :: steps)) b).2 =
      (drawDeclared incoming (head :: steps) b).withClaimed
        ((steps.map ChainStep.id).reverse ++ b.claimed) := by
  have hclaimed : (b.putStep head.id head incoming).claimed = b.claimed :=
    connectAll_claimed _ _ _
  rw [chainFlow_cons, drawFlow_of_entrance, drawFlow_chainFlow hnodup,
    hclaimed, drawDeclared]
  rwa [hclaimed]

theorem claimHeads_of_free
    (followers : ChainStep → List ChainStep) {heads : List ChainStep}
    {b : Builder} (hnodup : (heads.map ChainStep.id).Nodup)
    (hfree : ∀ id ∈ heads.map ChainStep.id, id ∉ b.claimed) (rank : Nat) :
    claimHeads rank
        (heads.map fun head => chainFlow (head :: followers head)) b =
      (heads.map fun head => some (.node ⟨head.id, head.id⟩),
        b.withClaimed ((heads.map ChainStep.id).reverse ++ b.claimed)) := by
  induction heads generalizing b with
  | nil => rfl
  | cons head heads ih =>
      have hclaim := claim_of_notMem (hfree head.id List.mem_cons_self) rank
      have hhead : claimHead rank (chainFlow (head :: followers head)) b =
          (some (.node ⟨head.id, head.id⟩),
            b.withClaimed (head.id :: b.claimed)) := by
        change (some (Entrance.node ⟨(b.claim head.id rank).1, head.id⟩),
          (b.claim head.id rank).2) = _
        rw [hclaim]
      simp only [List.map_cons, claimHeads, hhead]
      rw [ih (List.nodup_cons.mp hnodup).2
        (free_behind [head.id] hnodup hfree)]
      simp [withClaimed]

/-- Draws chains side by side, each step under the id that it declares. -/
def drawSideBySide (followers : ChainStep → List ChainStep)
    (heads : List ChainStep) (b : Builder) : Builder :=
  heads.foldl (fun b head => drawDeclared [] (head :: followers head) b) b

theorem drawSideBySide_withClaimed
    (followers : ChainStep → List ChainStep) (heads : List ChainStep)
    (b : Builder) (claimed : List String) :
    drawSideBySide followers heads (b.withClaimed claimed) =
      (drawSideBySide followers heads b).withClaimed claimed :=
  List.foldl_hom (withClaimed · claimed) fun b head =>
    drawDeclared_withClaimed (head :: followers head) b claimed []

theorem drawBranches_of_heads
    (followers : ChainStep → List ChainStep) {heads : List ChainStep}
    {b : Builder} (hnodup : ((heads.flatMap followers).map ChainStep.id).Nodup)
    (hfree : ∀ id ∈ (heads.flatMap followers).map ChainStep.id, id ∉ b.claimed)
    (rank : Nat) :
    (drawBranches rank []
        (heads.map fun head => chainFlow (head :: followers head))
        (heads.map fun head => some (.node ⟨head.id, head.id⟩)) b).2 =
      (drawSideBySide followers heads b).withClaimed
        (((heads.flatMap followers).map ChainStep.id).reverse ++
          b.claimed) := by
  induction heads generalizing b with
  | nil => rfl
  | cons head heads ih =>
      rw [List.flatMap_cons, List.map_append] at hnodup hfree
      obtain ⟨hfirst, hlater, -⟩ := List.nodup_append.mp hnodup
      have hbranch := drawFlow_of_head head hfirst
        (fun id hid => hfree id (List.mem_append_left _ hid)) rank []
      have hcons : (drawBranches rank []
          ((head :: heads).map fun head => chainFlow (head :: followers head))
          ((head :: heads).map fun head => some (.node ⟨head.id, head.id⟩))
          b).2 = (drawBranches rank []
            (heads.map fun head => chainFlow (head :: followers head))
            (heads.map fun head => some (.node ⟨head.id, head.id⟩))
            (drawFlow rank [] (some (.node ⟨head.id, head.id⟩))
              (chainFlow (head :: followers head)) b).2).2 := rfl
      rw [hcons, hbranch, ih hlater (free_behind _ hnodup hfree),
        drawSideBySide_withClaimed]
      simp [drawSideBySide, withClaimed]

/-- A parallel entry of chains gives every step the id that it declares. -/
theorem drawFlow_parallel
    (followers : ChainStep → List ChainStep) {heads : List ChainStep}
    {b : Builder}
    (hnodup : ((heads.flatMap fun head => head :: followers head).map
      ChainStep.id).Nodup)
    (hfree : ∀ id ∈ (heads.flatMap fun head => head :: followers head).map
      ChainStep.id, id ∉ b.claimed)
    (rank : Nat) :
    ∃ claimed, (drawFlow rank [] none [.parallel (heads.map fun head =>
        chainFlow (head :: followers head))] b).2 =
      (drawSideBySide followers heads b).withClaimed claimed := by
  have hperm : (heads.map ChainStep.id ++
      (heads.flatMap followers).map ChainStep.id).Perm
        ((heads.flatMap fun head => head :: followers head).map
          ChainStep.id) := by
    rw [← List.map_append]
    have hids := List.map_append_flatMap_perm heads id followers
    rw [List.map_id] at hids
    exact hids.map ChainStep.id
  have hnodup' := hperm.nodup_iff.mpr hnodup
  have hfree' := fun id hid => hfree id (hperm.subset hid)
  have hclaims := claimHeads_of_free followers (List.nodup_append.mp hnodup').1
    (fun id hid => hfree' id (List.mem_append_left _ hid)) rank
  have hdraw : (drawFlow rank [] none [.parallel (heads.map fun head =>
      chainFlow (head :: followers head))] b).2 =
        (drawBranches rank []
          (heads.map fun head => chainFlow (head :: followers head))
          (claimHeads rank (heads.map fun head =>
            chainFlow (head :: followers head)) b).1
          (claimHeads rank (heads.map fun head =>
            chainFlow (head :: followers head)) b).2).2 := rfl
  have hbranches := drawBranches_of_heads (b := b.withClaimed _) followers
    (List.nodup_append.mp hnodup').2.1 (free_behind _ hnodup' hfree') rank
  rw [drawSideBySide_withClaimed, withClaimed_withClaimed] at hbranches
  rw [hdraw, hclaims]
  exact ⟨_, hbranches⟩

/-- Chains that are drawn one after the other keep the declared ids, too. -/
theorem foldl_drawFlow
    (followers : ChainStep → List ChainStep) {heads : List ChainStep}
    {b : Builder}
    (hnodup : ((heads.flatMap fun head => head :: followers head).map
      ChainStep.id).Nodup)
    (hfree : ∀ id ∈ (heads.flatMap fun head => head :: followers head).map
      ChainStep.id, id ∉ b.claimed)
    (rank : Nat) :
    ∃ claimed, heads.foldl (fun b head =>
        (drawFlow rank [] none (chainFlow (head :: followers head)) b).2) b =
      (drawSideBySide followers heads b).withClaimed claimed := by
  induction heads generalizing b with
  | nil => exact ⟨b.claimed, rfl⟩
  | cons head heads ih =>
      rw [List.flatMap_cons, List.map_append] at hnodup hfree
      obtain ⟨hfirst, hlater, -⟩ := List.nodup_append.mp hnodup
      rw [List.foldl_cons, drawFlow_chainFlow hfirst
        (fun id hid => hfree id (List.mem_append_left _ hid))]
      obtain ⟨claimed, heq⟩ := ih
        (b := (drawDeclared [] (head :: followers head) b).withClaimed
          (((head :: followers head).map ChainStep.id).reverse ++ b.claimed))
        hlater (free_behind _ hnodup hfree)
      refine ⟨claimed, heq.trans ?_⟩
      rw [drawSideBySide_withClaimed, withClaimed_withClaimed]
      rfl

/-- Both ways of drawing chains hand out the same ids, if in another order, and
no finished diagram shows the order. -/
theorem finish_drawFlow_parallel
    (followers : ChainStep → List ChainStep) {heads : List ChainStep}
    {b : Builder}
    (hnodup : ((heads.flatMap fun head => head :: followers head).map
      ChainStep.id).Nodup)
    (hfree : ∀ id ∈ (heads.flatMap fun head => head :: followers head).map
      ChainStep.id, id ∉ b.claimed)
    (rank : Nat) :
    (drawFlow rank [] none [.parallel (heads.map fun head =>
        chainFlow (head :: followers head))] b).2.finish =
      (heads.foldl (fun b head =>
        (drawFlow rank [] none (chainFlow (head :: followers head)) b).2)
        b).finish := by
  obtain ⟨claimed, hparallel⟩ := drawFlow_parallel followers hnodup hfree rank
  obtain ⟨claimed', hchains⟩ := foldl_drawFlow followers hnodup hfree rank
  rw [hparallel, hchains, finish_withClaimed, finish_withClaimed]

end Builder

theorem Progress.drawGraph_builder
    {graph : ChainGraph}
    (hplain : ∀ head ∈ graph.heads, ∀ step ∈ graph.chain head, step.IsPlain)
    (rank : Nat) (incoming : Frontier) (p : Progress) :
    (p.drawGraph graph rank incoming).builder =
      graph.heads.foldl (fun b head =>
        (Builder.drawFlow rank incoming none (chainFlow (graph.chain head))
          b).2) p.builder := by
  have hheads : ∀ heads ⊆ graph.heads, ∀ p : Progress,
      (heads.foldl (fun p head =>
        p.drawChain rank incoming (graph.chain head)) p).builder =
      heads.foldl (fun b head =>
        (Builder.drawFlow rank incoming none (chainFlow (graph.chain head))
          b).2) p.builder := by
    intro heads hsubset
    induction heads with
    | nil => exact fun p => rfl
    | cons head heads ih =>
        intro p
        obtain ⟨hhead, hlater⟩ := List.cons_subset.mp hsubset
        rw [List.foldl_cons, ih hlater, List.foldl_cons,
          drawChain_builder (hplain head hhead)]
  exact hheads graph.heads (List.Subset.refl _) p

/-! ## Workflows without subscribers -/

theorem Diagram.ofWorkflow_of_plain
    {w : Workflow} (hsubscribers : w.subscribers = [])
    (hplain : ∀ head ∈ w.main.heads, ∀ step ∈ w.main.chain head, step.IsPlain)
    (style : EdgeStyle) :
    ofWorkflow style w =
      .ok (w.main.heads.foldl (fun b head =>
        (Builder.drawFlow 0 [] none (chainFlow (w.main.chain head)) b).2)
        (Builder.empty style)).finish := by
  rw [ofWorkflow, ofGraphs, hsubscribers, Progress.settle, Except.map,
    Progress.drawGraph_builder hplain]

/-- A workflow of a single plain chain has the diagram of the flow of its steps.
A workflow of plain chains without a repeated id has the diagram of the parallel
entry whose branches are these flows. -/
theorem ofWorkflow_plain_chains
    {w : Workflow} (hsubscribers : w.subscribers = [])
    (hplain : ∀ head ∈ w.main.heads, ∀ step ∈ w.main.chain head, step.IsPlain)
    (style : EdgeStyle) :
    (∀ head, w.main.heads = [head] → ∃ diagram,
      Diagram.ofWorkflow style w = .ok diagram ∧
      Diagram.ofFlow style (chainFlow (w.main.chain head)) = .ok diagram) ∧
    (((w.main.heads.flatMap w.main.chain).map ChainStep.id).Nodup →
      ∃ diagram, Diagram.ofWorkflow style w = .ok diagram ∧
        Diagram.ofFlow style [.parallel (w.main.heads.map fun head =>
          chainFlow (w.main.chain head))] = .ok diagram) := by
  have hdrawn := Diagram.ofWorkflow_of_plain hsubscribers hplain style
  constructor
  · intro head hheads
    refine ⟨_, hdrawn, Diagram.ofFlow_eq_ok_iff.mpr ?_⟩
    rw [Flow.foldElse, foldElseFlow_chainFlow, hheads]
    exact ⟨chainFlow_aligned _, rfl⟩
  · intro hnodup
    refine ⟨_, hdrawn, Diagram.ofFlow_eq_ok_iff.mpr ?_⟩
    have hfolded := foldElse_parallel_chainFlow
      (w.main.heads.map w.main.chain)
    have haligned := branchesAligned_chainFlow
      (w.main.heads.map w.main.chain)
    simp only [List.map_map, Function.comp_def] at hfolded haligned
    rw [hfolded]
    exact ⟨⟨haligned, trivial⟩, Builder.finish_drawFlow_parallel
      (fun head => (w.main.followers.lookup head.id).getD []) hnodup
      (by simp [Builder.empty]) 0⟩

/-- A chain that comes back to the id of its head. -/
def recurringWorkflow : Workflow where
  main := ⟨[⟨"go", some "first", none, none, none⟩],
    [("go", [⟨"go-1", none, none, none, some "again"⟩,
      ⟨"go", none, none, none, none⟩])]⟩
  subscribers := []

/-- Two chains whose edges compete for one id. -/
def pairedWorkflow : Workflow where
  main := ⟨[⟨"a", none, none, none, none⟩, ⟨"a-b", none, none, none, none⟩],
    [("a", [⟨"b-c", none, none, none, none⟩]),
      ("a-b", [⟨"c", none, none, none, none⟩])]⟩
  subscribers := []

theorem recurringWorkflow_pairedWorkflow_plain :
    (∃ diagram,
      Diagram.ofWorkflow .standard recurringWorkflow = .ok diagram ∧
      Diagram.ofFlow .standard
        [.step (.plain "go" (some "first")), .step (.plain "go-1" none),
          .step (.plain "go" none)] = .ok diagram) ∧
    ∃ diagram,
      Diagram.ofWorkflow .standard pairedWorkflow = .ok diagram ∧
      Diagram.ofFlow .standard
        [.parallel
          [[.step (.plain "a" none), .step (.plain "b-c" none)],
            [.step (.plain "a-b" none), .step (.plain "c" none)]]] =
        .ok diagram := by
  constructor
  · have hplain : ∀ head ∈ recurringWorkflow.main.heads,
        ∀ step ∈ recurringWorkflow.main.chain head, step.IsPlain := by
      simp [recurringWorkflow, ChainGraph.chain, ChainStep.IsPlain]
    exact (ofWorkflow_plain_chains rfl hplain .standard).1 _ rfl
  · have hplain : ∀ head ∈ pairedWorkflow.main.heads,
        ∀ step ∈ pairedWorkflow.main.chain head, step.IsPlain := by
      simp [pairedWorkflow, ChainGraph.chain, ChainStep.IsPlain,
        List.lookup_cons]
    exact (ofWorkflow_plain_chains rfl hplain .standard).2 (by decide)

end Flowchart
