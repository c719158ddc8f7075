import Flowchart.Proofs.Flow.Rejection
import Flowchart.Proofs.Flow.Wiring

/-!
# The census of a flow

The census goes through a flow as the document lists it, before else branches
are folded, and says what every node shows apart from its id and its
connections.  Drawing adds the nodes in the order of the census, although the
ids of the nodes are handed out in another order; and folding does not change
the census, since in an aligned flow the conditions of two merged entries stay
with the branches that they were declared for.
-/

namespace Flowchart

open Entrance

/-! ## Figures -/

/-- What a node shows, whatever its id is and whatever it is joined to. -/
structure Figure where
  kind : NodeKind
  label : String
  description : Option String
  stepGraph : Option Flow
  conditions : List Condition
  isLarge : Bool
  loopOutcome : Option LoopOutcome
  detail : Option Detail

/-- What the node shows. -/
def Node.figure (node : Node) : Figure where
  kind := node.kind
  label := node.payload.label
  description := node.payload.description
  stepGraph := node.payload.stepGraph
  conditions := node.payload.conditions
  isLarge := node.payload.isLarge
  loopOutcome := node.payload.loopOutcome
  detail := node.payload.detail

namespace Figure

/-- A step, with its nested flow if it stands for a workflow. -/
def step (s : Step Entry) (detail : Option Detail) : Figure where
  kind := if s.isWorkflow then .nested else .standard
  label := s.id
  description := s.description
  stepGraph := if s.isWorkflow then s.nestedFlow else none
  conditions := []
  isLarge := false
  loopOutcome := none
  detail := detail

/-- An entry that waits. -/
def pause (id : String) (description : Option String) (detail : Detail) :
    Figure :=
  ⟨.standard, id, description, none, [], false, none, some detail⟩

/-- A single condition.  A raw expression needs a large node. -/
def condition (label : String) (condition : Condition) : Figure :=
  ⟨.condition, label, none, none, [condition],
    condition.rawExpression.isSome, none, none⟩

end Figure

namespace Entry

mutual

/-- What the nodes of an entry show. -/
def census : Entry → List Figure
  | .step s => [.step s (s.mapConfig.map .map)]
  | .foreach s options =>
    [.step s (some (.foreach (options.map ForeachOptions.concurrency)
      s.mapConfig))]
  | .sleep id duration => [.pause id none (.sleep duration)]
  | .sleepUntil id date => [.pause id none (.sleepUntil date)]
  | .waitForEvent id event description =>
    [.pause id description (.waitForEvent event)]
  | .loop s exit kind =>
    [.step s (s.mapConfig.map .map),
      .condition exit.id (.raw kind.conditionKind exit.expr)]
  | .parallel branches => branchesCensus branches
  | .conditional branches conditions => guardedCensus branches conditions
termination_by structural e => e

/-- What the nodes of a flow show. -/
def flowCensus : List Entry → List Figure
  | [] => []
  | e :: flow => census e ++ flowCensus flow
termination_by structural flow => flow

/-- What the nodes of several branches show. -/
def branchesCensus : List (List Entry) → List Figure
  | [] => []
  | branch :: branches => flowCensus branch ++ branchesCensus branches
termination_by structural branches => branches

/-- What the nodes of several branches show, each behind the condition of its
own. -/
def guardedCensus : List (List Entry) → List Condition → List Figure
  | branch :: branches, condition :: conditions =>
    .condition condition.kind.word condition ::
      (flowCensus branch ++ guardedCensus branches conditions)
  | _, _ => []
termination_by structural branches => branches

end

end Entry

/-! ## Drawing -/

open Entry

namespace Builder

/-- What the nodes that are already drawn show. -/
def figures (b : Builder) : List Figure :=
  b.nodes.map Node.figure

theorem figures_eq_of_nodes_eq
    {b b' : Builder} (h : b'.nodes = b.nodes) : b'.figures = b.figures := by
  rw [figures, figures, h]

@[simp] theorem pushPoint_figures
    (b : Builder) (incoming : Frontier) (point : Tail) (kind : NodeKind)
    (payload : Payload) :
    (b.pushPoint incoming point kind payload).figures =
      b.figures ++ [Node.figure ⟨point.nodeId, kind, payload⟩] := by
  simp [figures, pushPoint, push_nodes]

@[simp] theorem pushExit_figures
    (b : Builder) (rank : Nat) (point : Tail) (exit : ExitCondition)
    (kind : LoopKind) :
    (b.pushExit rank point exit kind).2.figures =
      b.figures ++
        [.condition exit.id (.raw kind.conditionKind exit.expr)] := by
  simp [figures, pushExit, push_nodes, Node.figure, Figure.condition,
    ExitCondition.payload, Payload.ofConditions, Payload.labelled]

theorem pushGuard_figures
    (b : Builder) (incoming : Frontier) (point : Tail)
    (condition : Condition) :
    (b.pushGuard incoming point condition).figures =
      b.figures ++ [.condition condition.kind.word condition] := by
  simp [pushGuard, Node.figure, Figure.condition, Payload.ofConditions,
    Payload.labelled]

theorem drawSingle_figures
    {rank : Nat} {e : Entry} {entrance : Entrance} {declared : String}
    (he : e.declaredId? = some declared) (hfits : Fits rank e entrance)
    (incoming : Frontier) (b : Builder) :
    (drawEntry rank incoming e entrance b).2.figures =
      b.figures ++ census e := by
  cases hfits with
  | @node _ point _ _ =>
      cases e with
      | loop s exit kind =>
          change ((b.pushPoint incoming point s.nodeKind
            (.ofStep s)).pushExit rank point exit kind).2.figures = _
          rw [pushExit_figures, pushPoint_figures, List.append_assoc]
          rfl
      | step | foreach | sleep | sleepUntil | waitForEvent =>
          exact pushPoint_figures b incoming point _ _
      | parallel branches => cases he
      | conditional branches conditions => cases he
  | guards => cases he
  | fork => cases he

/- The induction follows the branches of an entry.  It does not matter when the
ids of an entrance were handed out, only that the entrance has the shape of its
entry: a branch then finds the ids that were claimed for it. -/
mutual

theorem drawEntry_figures (rank : Nat) :
    (e : Entry) → (incoming : Frontier) → (entrance : Entrance) →
      (b : Builder) → Fits rank e entrance → Aligned e →
      (drawEntry rank incoming e entrance b).2.figures = b.figures ++ census e
  | .parallel branches, incoming, _, b, .fork hheads, haligned => by
      simp only [Aligned] at haligned
      exact drawBranches_figures rank branches incoming _ b hheads haligned
  | .conditional branches conditions, incoming, _, b, .guards hguards,
      haligned => by
      simp only [Aligned] at haligned
      exact drawGuarded_figures rank branches conditions incoming 0 _ b hguards
        haligned.1 haligned.2
  | .step _, incoming, _, b, hfits, _ | .foreach _ _, incoming, _, b, hfits, _
  | .sleep _ _, incoming, _, b, hfits, _
  | .sleepUntil _ _, incoming, _, b, hfits, _
  | .waitForEvent _ _ _, incoming, _, b, hfits, _
  | .loop _ _ _, incoming, _, b, hfits, _ =>
      drawSingle_figures rfl hfits incoming b
termination_by structural e => e

theorem drawFlow_figures (rank : Nat) :
    (flow : List Entry) → (incoming : Frontier) → (head : Option Entrance) →
      (b : Builder) → FitsStart rank flow head → FlowAligned flow →
      (drawFlow rank incoming head flow b).2.figures =
        b.figures ++ flowCensus flow
  | [], _, none, b, _, _ => by simp [drawFlow, flowCensus]
  | e :: flow, incoming, head, b, hfits, haligned => by
      simp only [FlowAligned] at haligned
      obtain ⟨entrance, b', hfits', -, hnodes, -, hdraw⟩ :=
        exists_entrance incoming b hfits
      have hentry := drawEntry_figures rank e incoming entrance
        (b'.connectAll incoming entrance.points) hfits' haligned.1
      have hstart : (b'.connectAll incoming entrance.points).figures =
          b.figures :=
        figures_eq_of_nodes_eq (by rw [connectAll_nodes, hnodes])
      rw [hdraw, drawFlow, drawFlow_figures (rank + 1) flow _ none _ trivial
        haligned.2, hentry, hstart, flowCensus, List.append_assoc]
termination_by structural flow => flow

theorem drawBranches_figures (rank : Nat) :
    (branches : List (List Entry)) → (incoming : Frontier) →
      (heads : List (Option Entrance)) → (b : Builder) →
      FitsHeads rank branches heads → BranchesAligned branches →
      (drawBranches rank incoming branches heads b).2.figures =
        b.figures ++ branchesCensus branches
  | [], _, _, b, .nil, _ => by simp [drawBranches, branchesCensus]
  | [] :: branches, incoming, _, b, .empty hrest, haligned => by
      simp only [BranchesAligned] at haligned
      exact drawBranches_figures rank branches incoming _ b hrest haligned.2
  | (e :: flow) :: branches, incoming, _, b,
      @FitsHeads.cons _ _ _ entrance _ given hhead hrest, haligned => by
      simp only [BranchesAligned] at haligned
      have hflow := drawFlow_figures rank (e :: flow) incoming (some entrance)
        b hhead haligned.1
      have hbranches := drawBranches_figures rank branches incoming given
        (drawFlow rank incoming (some entrance) (e :: flow) b).2 hrest
        haligned.2
      rw [hflow, List.append_assoc] at hbranches
      exact hbranches
termination_by structural branches => branches

theorem drawGuarded_figures (rank : Nat) :
    (branches : List (List Entry)) → (conditions : List Condition) →
      (incoming : Frontier) → (index : Nat) → (points : List Tail) →
      (b : Builder) → FitsGuards rank index branches points →
      branches.length = conditions.length → BranchesAligned branches →
      (drawGuarded rank incoming branches conditions points b).2.figures =
        b.figures ++ guardedCensus branches conditions
  | [], _, _, _, _, b, .nil, _, _ => by simp [drawGuarded, guardedCensus]
  | [] :: branches, condition :: conditions, incoming, index, point :: points,
      b, .cons _ _ hrest, hlength, haligned => by
      simp only [BranchesAligned] at haligned
      have hbranches := drawGuarded_figures rank branches conditions incoming
        (index + 1) points (b.pushGuard incoming point condition) hrest
        (by simpa using hlength) haligned.2
      rw [pushGuard_figures, List.append_assoc] at hbranches
      exact hbranches
  | (e :: flow) :: branches, condition :: conditions, incoming, index,
      point :: points, b, .cons _ _ hrest, hlength, haligned => by
      simp only [BranchesAligned] at haligned
      have hflow := drawFlow_figures rank (e :: flow)
        [guardTail incoming point] none
        (b.pushGuard incoming point condition) trivial haligned.1
      have hbranches := drawGuarded_figures rank branches conditions incoming
        (index + 1) points
        (drawFlow rank [guardTail incoming point] none (e :: flow)
          (b.pushGuard incoming point condition)).2 hrest
        (by simpa using hlength) haligned.2
      rw [hflow, pushGuard_figures, List.append_assoc, List.append_assoc]
        at hbranches
      exact hbranches
  | _ :: _, [], _, _, _, _, _, hlength, _ => by simp at hlength
termination_by structural branches => branches

end

end Builder

/-! ## Folding -/

namespace Entry

theorem guardedCensus_append
    {branches others : List (List Entry)} {conditions tail : List Condition}
    (hlength : branches.length = conditions.length) :
    guardedCensus (branches ++ others) (conditions ++ tail) =
      guardedCensus branches conditions ++ guardedCensus others tail := by
  induction branches generalizing conditions with
  | nil =>
      have hnil : conditions = [] := by simpa [eq_comm] using hlength
      simp [hnil, guardedCensus]
  | cons branch branches ih =>
      cases conditions with
      | nil => simp at hlength
      | cons condition conditions =>
          simp only [List.cons_append, guardedCensus, List.append_assoc,
            ih (by simpa using hlength)]

/-- An entry with a condition for each branch keeps its nodes when another one
is merged into it. -/
theorem merge?_census
    {last e merged : Entry} (hlast : last.surplus = 0)
    (h : merge? last e = some merged) :
    merged.surplus = e.surplus ∧ census merged = census last ++ census e := by
  cases last with
  | conditional branches conditions =>
      cases e with
      | conditional branches' conditions' =>
          simp only [merge?, Option.ite_none_right_eq_some,
            Option.some.injEq] at h
          obtain ⟨-, rfl⟩ := h
          simp only [surplus, List.length_append, census] at hlast ⊢
          exact ⟨by omega, guardedCensus_append (by omega)⟩
      | _ => simp [merge?] at h
  | _ => simp [merge?] at h

mutual

theorem foldElse_census :
    (e : Entry) → Aligned e → census e.foldElse = census e
  | .parallel branches, haligned => by
      simp only [Aligned] at haligned
      exact (foldElseBranches_census branches haligned).1
  | .conditional branches conditions, haligned => by
      simp only [Aligned] at haligned
      exact (foldElseBranches_census branches haligned.2).2 conditions
  | .step _, _ | .foreach _ _, _ | .sleep _ _, _ | .sleepUntil _ _, _
  | .waitForEvent _ _ _, _ | .loop _ _ _, _ => rfl
termination_by structural e => e

theorem foldElseBranches_census :
    (branches : List (List Entry)) → BranchesAligned branches →
      branchesCensus (foldElseBranches branches) = branchesCensus branches ∧
      ∀ conditions, guardedCensus (foldElseBranches branches) conditions =
        guardedCensus branches conditions
  | [], _ => by simp [foldElseBranches]
  | branch :: branches, haligned => by
      simp only [BranchesAligned] at haligned
      have hbranch := foldElseFlow_census branch haligned.1
      have hbranches := foldElseBranches_census branches haligned.2
      constructor
      · rw [foldElseBranches, branchesCensus, branchesCensus, hbranch,
          hbranches.1]
      · intro conditions
        cases conditions with
        | nil => rfl
        | cons condition conditions =>
            rw [foldElseBranches, guardedCensus, guardedCensus, hbranch,
              hbranches.2]
termination_by structural branches => branches

theorem foldElseFlow_census :
    (flow : List Entry) → FlowAligned flow →
      flowCensus (foldElseFlow flow) = flowCensus flow
  | [], _ => rfl
  | e :: flow, haligned => by
      simp only [FlowAligned] at haligned
      rw [foldElseFlow, foldElseAfter_census flow haligned.2 e.foldElse
        (by rw [foldElse_surplus, (aligned_iff.mp haligned.1).1]),
        foldElse_census e haligned.1, flowCensus]
termination_by structural flow => flow

theorem foldElseAfter_census :
    (flow : List Entry) → FlowAligned flow → (last : Entry) →
      last.surplus = 0 →
      flowCensus (foldElseAfter last flow) = census last ++ flowCensus flow
  | [], _, last, _ => by simp [foldElseAfter, flowCensus]
  | e :: flow, haligned, last, hlast => by
      simp only [FlowAligned] at haligned
      have hentry := foldElse_census e haligned.1
      have hsurplus : e.foldElse.surplus = 0 := by
        rw [foldElse_surplus, (aligned_iff.mp haligned.1).1]
      rw [foldElseAfter]
      cases hmerge : merge? last e.foldElse with
      | none =>
          simp only
          rw [flowCensus, foldElseAfter_census flow haligned.2 e.foldElse
            hsurplus, hentry, flowCensus]
      | some merged =>
          obtain ⟨hmerged, hcensus⟩ := merge?_census hlast hmerge
          simp only
          rw [foldElseAfter_census flow haligned.2 merged
            (hmerged.trans hsurplus), hcensus, hentry, flowCensus,
            List.append_assoc]
termination_by structural flow => flow

end

end Entry

/-! ## Diagrams of flows -/

theorem Diagram.ofFoldedFlow_figures
    {flow : Flow} (haligned : FlowAligned flow) (style : EdgeStyle) :
    (ofFoldedFlow style flow).nodes.map Node.figure = flowCensus flow := by
  have hdraw := Builder.drawFlow_figures 0 flow [] none (.empty style) trivial
    haligned
  have hfinish : ∀ b : Builder, b.finish.nodes.map Node.figure = b.figures := by
    intro b
    rw [Builder.finish, List.map_map]
    rfl
  rw [ofFoldedFlow, hfinish, hdraw]
  rfl

/-- An aligned flow has a diagram, and the nodes of the diagram show, one by
one, what the census of the flow lists. -/
theorem ofFlow_nodes_census
    {flow : Flow} (haligned : FlowAligned flow) (style : EdgeStyle) :
    ∃ diagram, Diagram.ofFlow style flow = .ok diagram ∧
      diagram.nodes.map Node.figure = flowCensus flow := by
  have hfolded := foldElse_aligned haligned
  refine ⟨_, Diagram.ofFlow_eq_ok_iff.mpr ⟨hfolded, rfl⟩, ?_⟩
  rw [Diagram.ofFoldedFlow_figures hfolded]
  exact foldElseFlow_census flow haligned

/-- An else entry that is folded into an entry with an empty branch, heads of a
fork that are claimed ahead of its bodies, and a nested flow. -/
def surveyedFlow : Flow :=
  [.parallel
      [[.step (.plain "go" none), .sleep "go" 5], [],
        [.conditional [[], [.step (.plain "go" none)]]
            [.raw .ifKind "ready", .raw .ifKind "late"],
          .conditional [[.waitForEvent "go" "signal" none]]
            [.raw .elseKind ""]]],
    .loop ⟨"poll", some "again", true, some [.step (.plain "inner" none)], none⟩
      ⟨"done", "sent"⟩ .untilKind]

theorem surveyedFlow_nodes_census :
    FlowAligned surveyedFlow ∧
    ∃ diagram, Diagram.ofFlow .standard surveyedFlow = .ok diagram ∧
      diagram.nodes.map Node.figure = flowCensus surveyedFlow ∧
      (flowCensus surveyedFlow).map Figure.label =
        ["go", "go", "if", "if", "go", "else", "go", "poll", "done"] := by
  have haligned : FlowAligned surveyedFlow := by
    simp [surveyedFlow, FlowAligned, Aligned, BranchesAligned]
  obtain ⟨diagram, hok, hcensus⟩ := ofFlow_nodes_census haligned .standard
  exact ⟨haligned, diagram, hok, hcensus, by decide⟩

end Flowchart
