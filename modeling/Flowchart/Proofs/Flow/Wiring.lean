import Flowchart.Proofs.Flow.Outline
import Flowchart.Proofs.Flow.Sound

/-!
# The wiring of flows

While a flow is drawn, edges are asked for ahead of time and more than once: on
the way to the entry points of an entry, by the first entries of parallel
branches and by every node itself.  The diagram nevertheless realizes the
outline of the flow, in which every entry is joined to the next one without
looking ahead.
-/

namespace Flowchart

open Names Outline Entrance Entry

namespace Builder

variable {names : List String}

/-! ## Entries with one entry point -/

theorem pushExit_traces
    (b : Builder) (rank : Nat) (point : Tail) (exit : ExitCondition)
    (kind : LoopKind) {n : Nat}
    (hn : b.nodes.length = n + 1)
    (hpoint : StandsAt names [n] [point])
    (hnames : (b.pushExit rank point exit kind).2.nodeIds <+: names) :
    Traces names b (b.pushExit rank point exit kind).2
        [.exit rank exit kind] [(n, n + 1)] ∧
      StandsAt names [n + 1] (b.pushExit rank point exit kind).1 := by
  have hshows : ∀ id, IsRenaming exit.id rank id →
      Node.Shows ⟨id, .condition, exit.payload kind point.stepId⟩
        (.exit rank exit kind) :=
    fun _ hid => ⟨rfl, rfl, rfl, rfl, rfl, hid⟩
  have hpush := claim_push_traces b exit.id rank point.stepId .condition _
    hn hpoint hshows hnames
  exact ⟨hpush.2, hpush.1⟩

/-- An entry that is one node. -/
theorem pushPoint_traces
    (b : Builder) (point : Tail) {ins : List Nat} {incoming : Frontier}
    {kind : NodeKind} {payload : Payload} {card : Card} {n : Nat}
    (hn : b.nodes.length = n)
    (hincoming : StandsAt names ins incoming)
    (hshows : Node.Shows ⟨point.nodeId, kind, payload⟩ card)
    (hnames : (b.pushPoint incoming point kind payload).nodeIds <+: names) :
    StandsAt names [n] [point] ∧
      Traces names b (b.pushPoint incoming point kind payload) [card]
        (ins ×ˢ [n] ++ []) ∧
      StandsAt names [n] [point] := by
  obtain ⟨hpoint, htraces⟩ :=
    push_traces b point kind payload hn hincoming hshows hnames
  rw [List.append_nil]
  exact ⟨hpoint, htraces, hpoint⟩

theorem drawSingle_traces
    {rank n : Nat} {ins : List Nat} {incoming : Frontier} {e : Entry}
    {entrance : Entrance} {b : Builder} {declared : String}
    (he : e.declaredId? = some declared)
    (hn : b.nodes.length = n) (hfits : Fits rank e entrance)
    (hincoming : StandsAt names ins incoming)
    (hnames : (drawEntry rank incoming e entrance b).2.nodeIds <+: names) :
    StandsAt names (heads n e) entrance.points ∧
      Traces names b (drawEntry rank incoming e entrance b).2 (cards rank e)
        (ins ×ˢ heads n e ++ arcs n e) ∧
      StandsAt names (exits n e) (drawEntry rank incoming e entrance b).1 := by
  cases hfits with
  | @node _ point hdeclared hname =>
      obtain ⟨nodeId, stepId⟩ := point
      cases e with
      | step | foreach | sleep | sleepUntil | waitForEvent =>
          cases hdeclared
          exact pushPoint_traces b _ hn hincoming
            ⟨rfl, rfl, rfl, rfl, rfl, hname⟩ hnames
      | loop s exit kind =>
          cases hdeclared
          have hgrows := (claim_push_settles [⟨nodeId, s.id⟩] exit.id rank
            .condition (exit.payload kind s.id) s.id s.id
            (b.pushPoint incoming ⟨nodeId, s.id⟩ s.nodeKind (.ofStep s))).grows
          have hshows : Node.Shows ⟨nodeId, s.nodeKind, .ofStep s⟩
              (.ofStep rank s) :=
            ⟨rfl, rfl, rfl, rfl, rfl, hname⟩
          obtain ⟨hpoint, hstep, -⟩ := pushPoint_traces b ⟨nodeId, s.id⟩ hn
            hincoming hshows (hgrows.nodeIds.trans hnames)
          have hlength := hstep.nodes_length
          rw [hn] at hlength
          obtain ⟨hexit, htip⟩ := pushExit_traces _ rank ⟨nodeId, s.id⟩ exit
            kind hlength hpoint hnames
          rw [List.append_nil] at hstep
          exact ⟨hpoint, hstep.trans hexit, htip⟩
      | parallel branches => cases he
      | conditional branches conditions => cases he
  | guards => cases he
  | fork => cases he

/-! ## Entries and flows -/

/-- Whether its first entry already has an entrance or not, a flow is drawn from
an entrance that fits. -/
theorem exists_entrance
    {rank : Nat} {e : Entry} {flow : List Entry} {head : Option Entrance}
    (incoming : Frontier) (b : Builder)
    (hfits : FitsStart rank (e :: flow) head) :
    ∃ entrance b', Fits rank e entrance ∧
      (∀ given ∈ head, given = entrance) ∧
      b'.nodes = b.nodes ∧ b'.ends = b.ends ∧
      drawFlow rank incoming head (e :: flow) b =
        drawFlow rank incoming (some entrance) (e :: flow) b' := by
  cases head with
  | none =>
      have hclaims := claimEntrance_claims rank e b
      exact ⟨_, _, claimEntrance_fits rank e b, by simp, hclaims.nodes,
        hclaims.ends, rfl⟩
  | some entrance => exact ⟨entrance, b, hfits, by simp, rfl, rfl, rfl⟩

/-- An entry is joined to what comes before, then it is drawn, which asks for
the same edges again, and the flow goes on behind it. -/
theorem flow_cons_traces
    {rank n : Nat} {ins : List Nat} {incoming points : Frontier} {e : Entry}
    {flow : List Entry} {b drawn result : Builder}
    (hincoming : StandsAt names ins incoming)
    (hpoints : StandsAt names (heads n e) points)
    (hentry : Traces names (b.connectAll incoming points) drawn (cards rank e)
      (ins ×ˢ heads n e ++ arcs n e))
    (hflow : Traces names drawn result (flowCards (rank + 1) flow)
      (exits n e ×ˢ flowHeads (n + nodeCount e) flow ++
        flowArcs (n + nodeCount e) flow)) :
    Traces names b result (flowCards rank (e :: flow))
      (ins ×ˢ flowHeads n (e :: flow) ++ flowArcs n (e :: flow)) := by
  have htraces := ((Traces.connectAll b hincoming hpoints).trans
    hentry).trans hflow
  refine htraces.rearrange fun arc => ?_
  simp only [flowHeads, flowArcs, List.mem_append]
  tauto

/-- A condition node is joined to what comes before; the end that it leaves
open stands at it as well. -/
theorem pushGuard_traces
    (b : Builder) (condition : Condition) {rank n index : Nat}
    {ins : List Nat} {incoming : Frontier} {point : Tail}
    {branch : List Entry}
    (hn : b.nodes.length = n)
    (hname : IsRenaming (guardBaseId rank index branch) rank point.nodeId)
    (hincoming : StandsAt names ins incoming)
    (hnames : (b.pushGuard incoming point condition).nodeIds <+: names) :
    StandsAt names [n] [point] ∧
      Traces names b (b.pushGuard incoming point condition)
        [.guard rank index branch condition] (ins ×ˢ [n]) :=
  push_traces b point .condition _ hn hincoming
    ⟨rfl, rfl, rfl, rfl, rfl, hname⟩ hnames

/-- A condition node, its branch and the branches after it. -/
theorem guarded_cons_traces
    {rank index n : Nat} {ins : List Nat} {branch : List Entry}
    {branches : List (List Entry)} {condition : Condition}
    {conditions : List Condition} {b guarded drawn result : Builder}
    (hguard : Traces names b guarded [.guard rank index branch condition]
      (ins ×ˢ [n]))
    (hflow : Traces names guarded drawn (flowCards rank branch)
      ([n] ×ˢ flowHeads (n + 1) branch ++ flowArcs (n + 1) branch))
    (hbranches : Traces names drawn result
      (guardedCards rank (index + 1) branches conditions)
      (ins ×ˢ guardHeads (n + 1 + flowNodeCount branch) branches ++
        guardedArcs (n + 1 + flowNodeCount branch) branches)) :
    Traces names b result
      (guardedCards rank index (branch :: branches)
        (condition :: conditions))
      (ins ×ˢ guardHeads n (branch :: branches) ++
        guardedArcs n (branch :: branches)) := by
  refine ((hguard.trans hflow).trans hbranches).rearrange fun arc => ?_
  have hsplit : n :: guardHeads (n + 1 + flowNodeCount branch) branches =
      [n] ++ guardHeads (n + 1 + flowNodeCount branch) branches := rfl
  simp only [guardHeads, guardedArcs, hsplit, mem_product_append,
    List.mem_append]
  tauto

/- The induction follows the branches of an entry.  The numbers of nodes are
known beforehand; their ids are those of the finished diagram, of which every
part of the drawing has only the first ones.  So the ends that an entry is drawn
behind are given as numbers, and the later parts of the drawing enter through
what they add to the ids. -/
mutual

theorem drawEntry_traces (rank : Nat) :
    (e : Entry) → (n : Nat) → (ins : List Nat) → (incoming : Frontier) →
      (entrance : Entrance) → (b : Builder) → b.nodes.length = n →
      Fits rank e entrance → Aligned e → StandsAt names ins incoming →
      (drawEntry rank incoming e entrance b).2.nodeIds <+: names →
      StandsAt names (heads n e) entrance.points ∧
        Traces names b (drawEntry rank incoming e entrance b).2 (cards rank e)
          (ins ×ˢ heads n e ++ arcs n e) ∧
        StandsAt names (exits n e) (drawEntry rank incoming e entrance b).1
  | .parallel branches, n, ins, incoming, _, b, hn, .fork hheads, haligned,
      hincoming, hnames => by
      simp only [Aligned] at haligned
      exact drawBranches_traces rank branches n ins incoming _ b hn hheads
        haligned hincoming hnames
  | .conditional branches conditions, n, ins, incoming, _, b, hn,
      .guards hguards, haligned, hincoming, hnames => by
      simp only [Aligned] at haligned
      exact drawGuarded_traces rank branches conditions n 0 ins incoming _ b hn
        hguards haligned.1 haligned.2 hincoming hnames
  | .step _, _, _, _, _, _, hn, hfits, _, hincoming, hnames
  | .foreach _ _, _, _, _, _, _, hn, hfits, _, hincoming, hnames
  | .sleep _ _, _, _, _, _, _, hn, hfits, _, hincoming, hnames
  | .sleepUntil _ _, _, _, _, _, _, hn, hfits, _, hincoming, hnames
  | .waitForEvent _ _ _, _, _, _, _, _, hn, hfits, _, hincoming, hnames
  | .loop _ _ _, _, _, _, _, _, hn, hfits, _, hincoming, hnames =>
      drawSingle_traces rfl hn hfits hincoming hnames
termination_by structural e => e

theorem drawFlow_traces (rank : Nat) :
    (flow : List Entry) → (n : Nat) → (ins : List Nat) →
      (incoming : Frontier) → (head : Option Entrance) → (b : Builder) →
      b.nodes.length = n → FitsStart rank flow head → FlowAligned flow →
      StandsAt names ins incoming →
      (drawFlow rank incoming head flow b).2.nodeIds <+: names →
      (∀ entrance ∈ head, StandsAt names (flowHeads n flow) entrance.points) ∧
        Traces names b (drawFlow rank incoming head flow b).2
          (flowCards rank flow) (ins ×ˢ flowHeads n flow ++ flowArcs n flow) ∧
        StandsAt names (flowExits ins n flow)
          (drawFlow rank incoming head flow b).1
  | [], _, ins, _, none, b, _, _, _, hincoming, _ => by
      refine ⟨by simp, ?_, hincoming⟩
      simpa [drawFlow, flowHeads, flowArcs, flowCards]
        using Traces.refl names b
  | e :: flow, n, ins, incoming, head, b, hn, hfits, haligned, hincoming,
      hnames => by
      simp only [FlowAligned] at haligned
      obtain ⟨entrance, b', hfits', hgiven, hnodes, hends, hdraw⟩ :=
        exists_entrance incoming b hfits
      rw [hdraw] at hnames ⊢
      have hlater := (drawFlow_settles (rank + 1) flow
        (drawEntry rank incoming e entrance
          (b'.connectAll incoming entrance.points)).1 none
        (drawEntry rank incoming e entrance
          (b'.connectAll incoming entrance.points)).2
        trivial haligned.2).grows
      obtain ⟨hpoints, hentry, htips⟩ := drawEntry_traces rank e n ins incoming
        entrance (b'.connectAll incoming entrance.points)
        (by rw [connectAll_nodes, hnodes, hn]) hfits' haligned.1 hincoming
        (hlater.nodeIds.trans hnames)
      have hlength := hentry.nodes_length
      rw [connectAll_nodes, hnodes, hn, cards_length rank e haligned.1]
        at hlength
      obtain ⟨-, hflow, hlast⟩ := drawFlow_traces (rank + 1) flow
        (n + nodeCount e) (exits n e) _ none _ hlength trivial haligned.2 htips
        hnames
      refine ⟨?_, ?_, hlast⟩
      · intro given hhead
        rw [hgiven given hhead]
        exact hpoints
      · exact (Traces.of_eq hnodes hends).trans
          (flow_cons_traces hincoming hpoints hentry hflow)
termination_by structural flow => flow

theorem drawBranches_traces (rank : Nat) :
    (branches : List (List Entry)) → (n : Nat) → (ins : List Nat) →
      (incoming : Frontier) → (given : List (Option Entrance)) →
      (b : Builder) → b.nodes.length = n → FitsHeads rank branches given →
      BranchesAligned branches → StandsAt names ins incoming →
      (drawBranches rank incoming branches given b).2.nodeIds <+: names →
      StandsAt names (branchesHeads n branches) (pointsOfHeads given) ∧
        Traces names b (drawBranches rank incoming branches given b).2
          (branchesCards rank branches)
          (ins ×ˢ branchesHeads n branches ++ branchesArcs n branches) ∧
        StandsAt names (branchesExits 0 n branches)
          (drawBranches rank incoming branches given b).1
  | [], _, ins, _, _, b, _, .nil, _, _, _ => by
      refine ⟨standsAt_nil, ?_, standsAt_nil⟩
      simpa [drawBranches, branchesHeads, branchesArcs, branchesCards]
        using Traces.refl names b
  | [] :: branches, n, ins, incoming, _, b, hn, .empty hrest, haligned,
      hincoming, hnames => by
      simp only [BranchesAligned] at haligned
      exact drawBranches_traces rank branches n ins incoming _ b hn hrest
        haligned.2 hincoming hnames
  | (e :: flow) :: branches, n, ins, incoming, _, b, hn,
      @FitsHeads.cons _ _ _ entrance _ given hhead hrest, haligned, hincoming,
      hnames => by
      simp only [BranchesAligned] at haligned
      have hlater := (drawBranches_settles rank branches incoming given
        (drawFlow rank incoming (some entrance) (e :: flow) b).2 hrest
        haligned.2).grows
      obtain ⟨hpoints, hflow, htips⟩ := drawFlow_traces rank (e :: flow) n ins
        incoming (some entrance) b hn hhead haligned.1 hincoming
        (hlater.nodeIds.trans hnames)
      have hlength := hflow.nodes_length
      rw [hn, flowCards_length rank _ haligned.1] at hlength
      obtain ⟨hpoints', hbranches, htips'⟩ := drawBranches_traces rank branches
        (n + flowNodeCount (e :: flow)) ins incoming given _ hlength hrest
        haligned.2 hincoming hnames
      refine ⟨(hpoints entrance rfl).append hpoints', ?_, htips.append htips'⟩
      refine (hflow.trans hbranches).rearrange fun arc => ?_
      simp only [branchesHeads, branchesArcs, mem_product_append,
        List.mem_append]
      tauto
termination_by structural branches => branches

theorem drawGuarded_traces (rank : Nat) :
    (branches : List (List Entry)) → (conditions : List Condition) →
      (n index : Nat) → (ins : List Nat) → (incoming : Frontier) →
      (points : List Tail) → (b : Builder) → b.nodes.length = n →
      FitsGuards rank index branches points →
      branches.length = conditions.length → BranchesAligned branches →
      StandsAt names ins incoming →
      (drawGuarded rank incoming branches conditions points b).2.nodeIds <+:
        names →
      StandsAt names (guardHeads n branches) points ∧
        Traces names b
          (drawGuarded rank incoming branches conditions points b).2
          (guardedCards rank index branches conditions)
          (ins ×ˢ guardHeads n branches ++ guardedArcs n branches) ∧
        StandsAt names (branchesExits 1 n branches)
          (drawGuarded rank incoming branches conditions points b).1
  | [], _, _, _, ins, _, _, b, _, .nil, _, _, _, _ => by
      refine ⟨standsAt_nil, ?_, standsAt_nil⟩
      simpa [drawGuarded, guardHeads, guardedArcs, guardedCards]
        using Traces.refl names b
  | [] :: branches, condition :: conditions, n, index, ins, incoming,
      point :: points, b, hn, .cons hname _ hrest, hconditions, haligned,
      hincoming, hnames => by
      simp only [BranchesAligned] at haligned
      have hconditions' : branches.length = conditions.length := by
        simpa using hconditions
      have hlater := (drawGuarded_settles rank branches conditions incoming
        (index + 1) points (b.pushGuard incoming point condition) hrest
        hconditions' haligned.2).grows
      obtain ⟨hpoint, hguard⟩ := pushGuard_traces b condition hn hname
        hincoming (hlater.nodeIds.trans hnames)
      have hlength := hguard.nodes_length
      rw [hn] at hlength
      obtain ⟨hpoints', hbranches, htips'⟩ := drawGuarded_traces rank branches
        conditions (n + 1) (index + 1) ins incoming points _ hlength hrest
        hconditions' haligned.2 hincoming hnames
      exact ⟨hpoint.append hpoints',
        guarded_cons_traces hguard (.refl names _) hbranches, htips'⟩
  | (e :: flow) :: branches, condition :: conditions, n, index, ins, incoming,
      point :: points, b, hn, .cons hname _ hrest, hconditions, haligned,
      hincoming, hnames => by
      simp only [BranchesAligned] at haligned
      have hconditions' : branches.length = conditions.length := by
        simpa using hconditions
      have hlater := (drawGuarded_settles rank branches conditions incoming
        (index + 1) points
        (drawFlow rank [guardTail incoming point] none (e :: flow)
          (b.pushGuard incoming point condition)).2 hrest
        hconditions' haligned.2).grows
      have hinner := (drawFlow_settles rank (e :: flow)
        [guardTail incoming point] none
        (b.pushGuard incoming point condition) trivial haligned.1).grows
      obtain ⟨hpoint, hguard⟩ := pushGuard_traces b condition hn hname
        hincoming ((hinner.trans hlater).nodeIds.trans hnames)
      have hlength := hguard.nodes_length
      rw [hn] at hlength
      obtain ⟨-, hflow, htips⟩ := drawFlow_traces rank (e :: flow) (n + 1) [n]
        [guardTail incoming point] none _ hlength trivial haligned.1 hpoint
        (hlater.nodeIds.trans hnames)
      have hlength' := hflow.nodes_length
      rw [hlength, flowCards_length rank _ haligned.1] at hlength'
      obtain ⟨hpoints', hbranches, htips'⟩ := drawGuarded_traces rank branches
        conditions (n + 1 + flowNodeCount (e :: flow)) (index + 1) ins incoming
        points _ hlength' hrest hconditions' haligned.2 hincoming hnames
      exact ⟨hpoint.append hpoints',
        guarded_cons_traces hguard hflow hbranches, htips.append htips'⟩
  | _ :: _, [], _, _, _, _, _, _, _, _, hlength, _, _, _ => by simp at hlength
termination_by structural branches => branches

end

end Builder

/-! ## Diagrams of flows -/

namespace Diagram

theorem ofFoldedFlow_realizes
    {flow : Flow} (haligned : FlowAligned flow) (style : EdgeStyle) :
    (ofFoldedFlow style flow).Realizes (Outline.ofFlow flow) := by
  have hsound : ((Builder.empty style).drawFlow 0 [] none flow).2.Sound [] :=
    sound_drawFlow haligned
  obtain ⟨-, htraces, -⟩ := Builder.drawFlow_traces 0 flow 0 [] [] none
    (.empty style) rfl trivial haligned standsAt_nil (List.prefix_refl _)
  refine realizes_finish hsound htraces ?_
  intro arc harc
  have hbounds := (flow_bounds 0 flow).2.2 arc harc
  rw [Nat.zero_add] at hbounds
  exact ⟨hbounds.2.1,
    (flowCards_length 0 flow haligned).symm ▸ hbounds.2.2⟩

end Diagram

/-- The diagram of a flow realizes the outline of the flow with its else
branches folded: its nodes are those that the entries stand for, one by one,
and its edges are exactly the arcs of the outline, each once. -/
theorem ofFlow_realizes_outline
    {style : EdgeStyle} {flow : Flow} {diagram : Diagram}
    (h : Diagram.ofFlow style flow = .ok diagram) :
    diagram.Realizes (Outline.ofFlow flow.foldElse) := by
  obtain ⟨haligned, rfl⟩ := Diagram.ofFlow_eq_ok_iff.mp h
  exact Diagram.ofFoldedFlow_realizes haligned style

/-- Branches within branches, a branch without entries in each fork, an else
branch that is folded, a loop and a repeated id. -/
def forkedFlow : Flow :=
  [.step (.plain "start" none),
    .parallel
      [[.parallel [[.step (.plain "left" none)], [], [.sleep "left" 5]]], []],
    .conditional [[.step (.plain "go" none)], []]
      [.raw .ifKind "ready", .raw .ifKind "late"],
    .conditional [[.loop (.plain "go" none) ⟨"done", "sent"⟩ .untilKind]]
      [.raw .elseKind ""],
    .waitForEvent "start" "signal" none]

theorem forkedFlow_realizes_outline :
    ∃ diagram, Diagram.ofFlow .standard forkedFlow = .ok diagram ∧
      diagram.Realizes (Outline.ofFlow forkedFlow.foldElse) ∧
      (Outline.ofFlow forkedFlow.foldElse).arcs =
        [(0, 1), (0, 2), (1, 3), (1, 5), (1, 6), (2, 3), (2, 5), (2, 6),
          (3, 4), (6, 7), (7, 8), (4, 9), (8, 9)] := by
  have hok := Diagram.ofFlow_eq_ok
    (by decide : flowMismatch? 0 false forkedFlow.foldElse = none) .standard
  exact ⟨_, hok, ofFlow_realizes_outline hok, by decide⟩

end Flowchart
