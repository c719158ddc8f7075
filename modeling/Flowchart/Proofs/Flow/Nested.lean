import Flowchart.Flow.Nested
import Flowchart.Proofs.Flow.Census
import Flowchart.Proofs.Text.Parts

/-!
# Nested flows in diagrams

A path goes by declared ids, and each id stands for the first step that has it
and stands for a workflow.  In a diagram this is the first nested node with the
id for its label, since the nodes of a diagram stand in the order of the
document and folding does not change that order.

So the label of a node leads to the nested flow of the node if no nested node
with the same label comes before it and if the label is an id that a path can
name.
-/

namespace Flowchart

namespace Entry

/-! ## Folding does not change what is found -/

theorem findInBranches?_append
    (id : String) (branches others : List (List Entry)) :
    findInBranches? id (branches ++ others) =
      (findInBranches? id branches).or (findInBranches? id others) := by
  induction branches with
  | nil => rfl
  | cons branch branches ih =>
      rw [List.cons_append, findInBranches?, ih, findInBranches?,
        Option.or_assoc]

theorem merge?_find
    {last e merged : Entry} (h : merge? last e = some merged) (id : String) :
    merged.findWorkflowStep? id =
      (last.findWorkflowStep? id).or (e.findWorkflowStep? id) := by
  cases last with
  | conditional branches conditions =>
      cases e with
      | conditional branches' conditions' =>
          simp only [merge?, Option.ite_none_right_eq_some,
            Option.some.injEq] at h
          obtain ⟨-, rfl⟩ := h
          exact findInBranches?_append id branches branches'
      | _ => simp [merge?] at h
  | _ => simp [merge?] at h

mutual

theorem foldElse_find (id : String) :
    (e : Entry) → e.foldElse.findWorkflowStep? id = e.findWorkflowStep? id
  | .parallel branches => foldElseBranches_find id branches
  | .conditional branches _ => foldElseBranches_find id branches
  | .step _ | .foreach _ _ | .sleep _ _ | .sleepUntil _ _ | .waitForEvent _ _ _
  | .loop _ _ _ => rfl
termination_by structural e => e

theorem foldElseBranches_find (id : String) :
    (branches : List (List Entry)) →
      findInBranches? id (foldElseBranches branches) =
        findInBranches? id branches
  | [] => rfl
  | branch :: branches => by
      rw [foldElseBranches, findInBranches?, foldElseFlow_find id branch,
        foldElseBranches_find id branches, findInBranches?]
termination_by structural branches => branches

theorem foldElseFlow_find (id : String) :
    (flow : List Entry) →
      findInFlow? id (foldElseFlow flow) = findInFlow? id flow
  | [] => rfl
  | e :: flow => by
      rw [foldElseFlow, foldElseAfter_find id flow, foldElse_find id e,
        findInFlow?]
termination_by structural flow => flow

theorem foldElseAfter_find (id : String) :
    (flow : List Entry) → (last : Entry) →
      findInFlow? id (foldElseAfter last flow) =
        (last.findWorkflowStep? id).or (findInFlow? id flow)
  | [], last => rfl
  | e :: flow, last => by
      rw [foldElseAfter]
      cases hmerge : merge? last e.foldElse with
      | none =>
          rw [findInFlow?, foldElseAfter_find id flow, foldElse_find id e,
            findInFlow?]
      | some merged =>
          rw [foldElseAfter_find id flow, merge?_find hmerge,
            foldElse_find id e, findInFlow?, Option.or_assoc]
termination_by structural flow => flow

end

end Entry

/-! ## What is found is listed first in the census -/

/-- The figure of a step that stands for a workflow and has the label. -/
def Figure.isNestedAs (id : String) (figure : Figure) : Bool :=
  figure.kind == .nested && figure.label == id

namespace Entry

theorem find?_step (id : String) (s : Step Entry) (detail : Option Detail) :
    ([Figure.step s detail].find? (Figure.isNestedAs id)).map
        Figure.stepGraph =
      (if s.id = id ∧ s.isWorkflow then some s else none).map Step.nested? := by
  by_cases hworkflow : s.isWorkflow <;> by_cases hid : s.id = id <;>
    simp [Figure.isNestedAs, Figure.step, Step.nested?, hworkflow, hid]

theorem map_find?_append
    (id : String) (figures others : List Figure) :
    ((figures ++ others).find? (Figure.isNestedAs id)).map Figure.stepGraph =
      ((figures.find? (Figure.isNestedAs id)).map Figure.stepGraph).or
        ((others.find? (Figure.isNestedAs id)).map Figure.stepGraph) := by
  rw [List.find?_append, Option.map_or]

mutual

theorem census_find (id : String) :
    (e : Entry) → Aligned e →
      ((census e).find? (Figure.isNestedAs id)).map Figure.stepGraph =
        (e.findWorkflowStep? id).map Step.nested?
  | .step s, _ => find?_step id s _
  | .foreach s _, _ => find?_step id s _
  | .loop s exit kind, _ => by
      have hexit : ([Figure.condition exit.id
          (.raw kind.conditionKind exit.expr)].find?
            (Figure.isNestedAs id)).map Figure.stepGraph = none := rfl
      have hcensus : census (.loop s exit kind) =
          [.step s (s.mapConfig.map .map)] ++
            [.condition exit.id (.raw kind.conditionKind exit.expr)] := rfl
      rw [hcensus, map_find?_append, hexit, Option.or_none]
      exact find?_step id s _
  | .parallel branches, haligned => by
      simp only [Aligned] at haligned
      exact branchesCensus_find id branches haligned
  | .conditional branches conditions, haligned => by
      simp only [Aligned] at haligned
      exact guardedCensus_find id branches conditions haligned.1 haligned.2
  | .sleep _ _, _ | .sleepUntil _ _, _ | .waitForEvent _ _ _, _ => rfl
termination_by structural e => e

theorem flowCensus_find (id : String) :
    (flow : List Entry) → FlowAligned flow →
      ((flowCensus flow).find? (Figure.isNestedAs id)).map Figure.stepGraph =
        (findInFlow? id flow).map Step.nested?
  | [], _ => rfl
  | e :: flow, haligned => by
      simp only [FlowAligned] at haligned
      rw [flowCensus, map_find?_append, census_find id e haligned.1,
        flowCensus_find id flow haligned.2, findInFlow?, Option.map_or]
termination_by structural flow => flow

theorem branchesCensus_find (id : String) :
    (branches : List (List Entry)) → BranchesAligned branches →
      ((branchesCensus branches).find? (Figure.isNestedAs id)).map
          Figure.stepGraph =
        (findInBranches? id branches).map Step.nested?
  | [], _ => rfl
  | branch :: branches, haligned => by
      simp only [BranchesAligned] at haligned
      rw [branchesCensus, map_find?_append,
        flowCensus_find id branch haligned.1,
        branchesCensus_find id branches haligned.2, findInBranches?,
        Option.map_or]
termination_by structural branches => branches

theorem guardedCensus_find (id : String) :
    (branches : List (List Entry)) → (conditions : List Condition) →
      branches.length = conditions.length → BranchesAligned branches →
      ((guardedCensus branches conditions).find?
          (Figure.isNestedAs id)).map Figure.stepGraph =
        (findInBranches? id branches).map Step.nested?
  | [], [], _, _ => rfl
  | [], _ :: _, _, _ => rfl
  | _ :: _, [], hlength, _ => by simp at hlength
  | branch :: branches, condition :: conditions, hlength, haligned => by
      simp only [BranchesAligned] at haligned
      have hguard : Figure.isNestedAs id
          (.condition condition.kind.word condition) = false := rfl
      rw [guardedCensus, List.find?_cons_of_neg (by rw [hguard]; decide),
        map_find?_append, flowCensus_find id branch haligned.1,
        guardedCensus_find id branches conditions (by simpa using hlength)
          haligned.2, findInBranches?, Option.map_or]
termination_by structural branches => branches

end

end Entry

/-! ## What is found is drawn first -/

/-- The first nested node with a label. -/
def Diagram.nested? (diagram : Diagram) (id : String) : Option Node :=
  diagram.nodes.find? fun node => node.isNested && node.payload.label == id

/-- An id leads from a flow to what the first nested node with this label
shows. -/
theorem Diagram.enter?_eq
    {style : EdgeStyle} {flow : Flow} {diagram : Diagram}
    (h : ofFlow style flow = .ok diagram) (id : String) :
    flow.enter? id = (diagram.nested? id).bind fun node =>
      node.payload.stepGraph := by
  obtain ⟨haligned, rfl⟩ := ofFlow_eq_ok_iff.mp h
  have hcensus := Entry.flowCensus_find id flow.foldElse haligned
  rw [← ofFoldedFlow_figures haligned style, List.find?_map, Flow.foldElse,
    Entry.foldElseFlow_find, Option.map_map] at hcensus
  have hshown := congrArg (Option.bind · fun nested => nested) hcensus
  rw [Option.bind_map, Option.bind_map] at hshown
  exact hshown.symm

namespace Flow

/-! ## Paths -/

/-- The ids that a path can name. -/
def IsPathId (id : String) : Prop :=
  Text.IsPart '/' id

theorem isPathId_of_mem_pathIds
    {path id : String} (h : id ∈ pathIds path) : IsPathId id :=
  Text.isPart_of_mem_parts (by decide) h

theorem pathIds_of_isPathId {id : String} (h : IsPathId id) :
    pathIds id = [id] :=
  Text.parts_of_isPart (by decide) h

theorem findNested_eq_ok_iff
    {flow : Flow} {path : String} {found : NestedFlow} :
    flow.findNested path = .ok found ↔
      ∃ id ids nested, pathIds path = id :: ids ∧
        found.label = labelSeparator.intercalate (id :: ids) ∧
        flow.enter? id = some nested ∧
        ids.foldlM enter? nested = some found.flow := by
  unfold findNested
  cases hids : pathIds path with
  | nil => simp
  | cons id ids =>
      simp only [List.isEmpty_cons, Bool.false_eq_true, if_false,
        List.foldlM_cons, Option.bind_eq_bind, List.cons.injEq]
      cases henter : flow.enter? id with
      | none => simp [henter]
      | some nested =>
          cases hrest : ids.foldlM enter? nested with
          | none => simp [henter, hrest]
          | some inner =>
              obtain ⟨label, flow'⟩ := found
              simp [henter, hrest, eq_comm]

end Flow

/-- A path leads through the first nested nodes with its ids for their labels.
So the nested flow of a node is found under the label of the node if a path can
name this label and if no nested node before it has the same label. -/
theorem ofFlow_nested_found
    {style : EdgeStyle} {flow : Flow} {diagram : Diagram}
    (h : Diagram.ofFlow style flow = .ok diagram) :
    (∀ node ∈ diagram.nodes, ∀ nested,
      node.payload.stepGraph = some nested →
      Flow.IsPathId node.payload.label →
      diagram.nested? node.payload.label = some node →
      flow.findNested node.payload.label =
        .ok ⟨node.payload.label, nested⟩) ∧
    (∀ path found, flow.findNested path = .ok found ↔
      ∃ id ids node nested, Flow.pathIds path = id :: ids ∧
        found.label = Flow.labelSeparator.intercalate (id :: ids) ∧
        diagram.nested? id = some node ∧
        node.payload.stepGraph = some nested ∧
        ids.foldlM Flow.enter? nested = some found.flow) ∧
    ∀ path, ∀ id ∈ Flow.pathIds path, Flow.IsPathId id := by
  refine ⟨?_, ?_, fun _ _ => Flow.isPathId_of_mem_pathIds⟩
  · intro node _ nested hnested hid hfirst
    refine Flow.findNested_eq_ok_iff.mpr ⟨node.payload.label, [], nested,
      Flow.pathIds_of_isPathId hid, ?_, ?_, rfl⟩
    · rw [String.intercalate_singleton]
    · rw [Diagram.enter?_eq h, hfirst, Option.bind_some, hnested]
  · intro path found
    simp only [Flow.findNested_eq_ok_iff, Diagram.enter?_eq h,
      Option.bind_eq_some_iff]
    constructor
    · rintro ⟨id, ids, nested, hpath, hlabel, ⟨node, hfirst, hnested⟩, hrest⟩
      exact ⟨id, ids, node, nested, hpath, hlabel, hfirst, hnested, hrest⟩
    · rintro ⟨id, ids, node, nested, hpath, hlabel, hfirst, hnested, hrest⟩
      exact ⟨id, ids, nested, hpath, hlabel, ⟨node, hfirst, hnested⟩, hrest⟩

/-- A workflow that is run in a loop, and a later step with its id. -/
def parcelFlow : Flow :=
  [.parallel
      [[.loop ⟨"ship", none, true,
          some [.step ⟨"hand", none, true, some [], none⟩], none⟩
          ⟨"sent", "sent"⟩ .untilKind],
        [.foreach ⟨"ship", none, true, none, none⟩ none]]]

theorem parcelFlow_nested_found :
    ∃ diagram, Diagram.ofFlow .standard parcelFlow = .ok diagram ∧
      ∃ node ∈ diagram.nodes,
        node.payload.stepGraph =
          some [.step ⟨"hand", none, true, some [], none⟩] ∧
        Flow.IsPathId node.payload.label ∧
        diagram.nested? node.payload.label = some node ∧
        parcelFlow.findNested node.payload.label =
          .ok ⟨"ship", [.step ⟨"hand", none, true, some [], none⟩]⟩ := by
  have hok := Diagram.ofFlow_eq_ok
    (by decide : Entry.flowMismatch? 0 false parcelFlow.foldElse = none)
    .standard
  have henter := Diagram.enter?_eq hok "ship"
  obtain ⟨node, hfirst, hnested⟩ :=
    Option.bind_eq_some_iff.mp (henter.symm.trans rfl)
  have hlabel : node.payload.label = "ship" := by
    have hfound := List.find?_some hfirst
    simp only [Bool.and_eq_true, beq_iff_eq] at hfound
    exact hfound.2
  have hid : Flow.IsPathId "ship" := ⟨by decide, by decide, by decide⟩
  have hmem := List.mem_of_find?_eq_some hfirst
  rw [← hlabel] at hfirst hid
  have hfound := (ofFlow_nested_found hok).1 node hmem _ hnested hid hfirst
  refine ⟨_, hok, node, hmem, hnested, hid, hfirst, hfound.trans ?_⟩
  rw [hlabel]

/-- Two workflows with the same id, and one with an id that no path can name. -/
def homonymousFlow : Flow :=
  [.step ⟨"go", none, true, some [], none⟩,
    .step ⟨"go", none, true, some [.step (.plain "inner" none)], none⟩,
    .step ⟨"go/on", none, true, some [.step (.plain "inner" none)], none⟩]

theorem homonymousFlow_found
    {path : String} {found : NestedFlow}
    (h : homonymousFlow.findNested path = .ok found) : found.flow = [] := by
  obtain ⟨id, ids, nested, hpath, -, henter, hrest⟩ :=
    Flow.findNested_eq_ok_iff.mp h
  have hid : Flow.IsPathId id :=
    Flow.isPathId_of_mem_pathIds (hpath ▸ List.mem_cons_self)
  have hnested : nested = [] := by
    by_cases hgo : "go" = id
    · subst hgo
      cases henter
      rfl
    · have hne : "go/on" ≠ id := by
        rintro rfl
        exact hid.separator_notMem (by decide)
      simp [Flow.enter?, homonymousFlow, Entry.findInFlow?,
        Entry.findWorkflowStep?, hgo, hne] at henter
  subst hnested
  cases ids with
  | nil => exact (Option.some.inj hrest).symm
  | cons next ids => cases hrest

/-- Only the first of the two workflows with one id is found. -/
theorem homonymousFlow_not_found :
    ∃ diagram, Diagram.ofFlow .standard homonymousFlow = .ok diagram ∧
      diagram.nodes.map (fun node => (node.id, node.payload.label)) =
        [("go", "go"), ("go-1", "go"), ("go/on", "go/on")] ∧
      ∀ node ∈ diagram.nodes, node.id ≠ "go" → ∃ nested,
        node.payload.stepGraph = some nested ∧
        ∀ path found, homonymousFlow.findNested path = .ok found →
          found.flow ≠ nested := by
  have hok := Diagram.ofFlow_eq_ok
    (by decide : Entry.flowMismatch? 0 false homonymousFlow.foldElse = none)
    .standard
  refine ⟨_, hok, by decide +kernel, ?_⟩
  intro node hnode hid
  have hnodes : (Diagram.ofFoldedFlow .standard
      homonymousFlow.foldElse).nodes.map
        (fun node => (node.id, node.payload.stepGraph)) =
      [("go", some []), ("go-1", some [.step (.plain "inner" none)]),
        ("go/on", some [.step (.plain "inner" none)])] := by
    rfl
  have hshown : node.payload.stepGraph =
      some [.step (.plain "inner" none)] := by
    have hmem := hnodes ▸ List.mem_map_of_mem
      (f := fun node : Node => (node.id, node.payload.stepGraph)) hnode
    simp only [List.mem_cons, Prod.mk.injEq, List.not_mem_nil, or_false] at hmem
    rcases hmem with ⟨hgo, -⟩ | ⟨-, hshown⟩ | ⟨-, hshown⟩
    · exact absurd hgo hid
    · exact hshown
    · exact hshown
  refine ⟨_, hshown, fun path found hfound => ?_⟩
  rw [homonymousFlow_found hfound]
  exact (List.cons_ne_nil _ _).symm

end Flowchart
