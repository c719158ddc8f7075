import Flowchart.Proofs.Flow.Nested

/-!
# Paths into nested flows

The ids of a path are followed one after the other.  At each of them all steps
of the current flow are listed in the order of the document, and the first one
that has the id and stands for a workflow is looked into.  A step that has the
id but does not stand for a workflow is passed over; a workflow without a nested
flow is not, and the path ends there in vain.

So a path of two parts is followed by following the one part and then the other,
wherever slashes and blanks stand in them.
-/

namespace Flowchart

namespace Entry

/-! ## The steps of a flow -/

mutual

/-- The steps of an entry in the order of the document, through branches but
not through nested flows. -/
def steps : Entry → List (Step Entry)
  | .step s | .foreach s _ | .loop s _ _ => [s]
  | .parallel branches => branchesSteps branches
  | .conditional branches _ => branchesSteps branches
  | .sleep _ _ | .sleepUntil _ _ | .waitForEvent _ _ _ => []
termination_by structural e => e

/-- The steps of several branches. -/
def branchesSteps : List (List Entry) → List (Step Entry)
  | [] => []
  | branch :: branches => flowSteps branch ++ branchesSteps branches
termination_by structural branches => branches

/-- The steps of a flow. -/
def flowSteps : List Entry → List (Step Entry)
  | [] => []
  | e :: flow => e.steps ++ flowSteps flow
termination_by structural flow => flow

end

/-- The step has the id and stands for a workflow. -/
def isWorkflowNamed (id : String) (s : Step Entry) : Bool :=
  s.id == id && s.isWorkflow

theorem find?_isWorkflowNamed_singleton (id : String) (s : Step Entry) :
    [s].find? (isWorkflowNamed id) =
      if s.id = id ∧ s.isWorkflow then some s else none := by
  by_cases h : s.id = id ∧ s.isWorkflow <;>
    simp [isWorkflowNamed, h]

mutual

theorem findWorkflowStep?_eq_find? (id : String) :
    (e : Entry) →
      e.findWorkflowStep? id = e.steps.find? (isWorkflowNamed id)
  | .step s => (find?_isWorkflowNamed_singleton id s).symm
  | .foreach s _ => (find?_isWorkflowNamed_singleton id s).symm
  | .loop s _ _ => (find?_isWorkflowNamed_singleton id s).symm
  | .parallel branches => findInBranches?_eq_find? id branches
  | .conditional branches _ => findInBranches?_eq_find? id branches
  | .sleep _ _ | .sleepUntil _ _ | .waitForEvent _ _ _ => rfl
termination_by structural e => e

theorem findInBranches?_eq_find? (id : String) :
    (branches : List (List Entry)) →
      findInBranches? id branches =
        (branchesSteps branches).find? (isWorkflowNamed id)
  | [] => rfl
  | branch :: branches => by
      rw [findInBranches?, findInFlow?_eq_find? id branch,
        findInBranches?_eq_find? id branches, branchesSteps, List.find?_append]
termination_by structural branches => branches

theorem findInFlow?_eq_find? (id : String) :
    (flow : List Entry) →
      findInFlow? id flow = (flowSteps flow).find? (isWorkflowNamed id)
  | [] => rfl
  | e :: flow => by
      rw [findInFlow?, findWorkflowStep?_eq_find? id e,
        findInFlow?_eq_find? id flow, flowSteps, List.find?_append]
termination_by structural flow => flow

end

theorem isWorkflow_of_isWorkflowNamed
    {id : String} {s : Step Entry} (h : isWorkflowNamed id s = true) :
    s.isWorkflow = true :=
  (Bool.and_eq_true_iff.mp h).2

end Entry

namespace Flow

/-! ## Following ids -/

/-- The ids lead from one flow to another: each leads from the current flow to
what the first workflow with this id carries. -/
inductive Leads : Flow → List String → Flow → Prop
  | here (flow : Flow) : Leads flow [] flow
  | into {flow nested target : Flow} {id : String} {ids : List String}
      {s : Step Entry}
      (hfirst : (Entry.flowSteps flow).find? (Entry.isWorkflowNamed id) =
        some s)
      (hnested : s.nestedFlow = some nested)
      (hrest : Leads nested ids target) : Leads flow (id :: ids) target

theorem enter?_eq_some_iff {flow nested : Flow} {id : String} :
    flow.enter? id = some nested ↔
      ∃ s, (Entry.flowSteps flow).find? (Entry.isWorkflowNamed id) = some s ∧
        s.nestedFlow = some nested := by
  rw [enter?, Entry.findInFlow?_eq_find?, Option.bind_eq_some_iff]
  refine exists_congr fun s => and_congr_right fun hfirst => ?_
  rw [Step.nested?, if_pos
    (Entry.isWorkflow_of_isWorkflowNamed (List.find?_some hfirst))]

theorem leads_iff_foldlM {flow target : Flow} {ids : List String} :
    Leads flow ids target ↔ ids.foldlM enter? flow = some target := by
  induction ids generalizing flow with
  | nil =>
      constructor
      · rintro ⟨⟩
        rfl
      · rintro ⟨⟩
        exact .here _
  | cons id ids ih =>
      rw [List.foldlM_cons, Option.bind_eq_bind, Option.bind_eq_some_iff]
      constructor
      · rintro (_ | ⟨hfirst, hnested, hrest⟩)
        exact ⟨_, enter?_eq_some_iff.mpr ⟨_, hfirst, hnested⟩, ih.mp hrest⟩
      · rintro ⟨nested, henter, hrest⟩
        obtain ⟨s, hfirst, hnested⟩ := enter?_eq_some_iff.mp henter
        exact .into hfirst hnested (ih.mpr hrest)

/-- Following two lists of ids is following the one and then the other. -/
theorem leads_append_iff {flow target : Flow} {ids ids' : List String} :
    Leads flow (ids ++ ids') target ↔
      ∃ middle, Leads flow ids middle ∧ Leads middle ids' target := by
  simp only [leads_iff_foldlM, List.foldlM_append, Option.bind_eq_bind,
    Option.bind_eq_some_iff]

/-! ## Segments -/

/-- The pieces of a path between its slashes, trimmed, without the blank
ones. -/
def segments (path : String) : List String :=
  ((path.toList.splitOn '/').map fun piece =>
    Text.trim (String.ofList piece)).filter (· ≠ "")

theorem pathIds_eq_segments (path : String) : pathIds path = segments path := by
  have hslash : "/".toList = ['/'] := rfl
  rw [pathIds, Text.parts, hslash, Text.splitOn_singleton, segments]
  refine List.filter_congr fun piece _ => Bool.eq_iff_iff.mpr ?_
  simp

theorem segments_append (path path' : String) :
    segments (path ++ "/" ++ path') = segments path ++ segments path' := by
  have hslash : (path ++ "/" ++ path').toList =
      path.toList ++ '/' :: path'.toList := by
    simp
  rw [segments, hslash, List.splitOn_append_cons_self, List.map_append,
    List.filter_append, segments, segments]

/-! ## What a path leads to -/

theorem findNested_eq_ok_iff_leads
    {flow : Flow} {path : String} {found : NestedFlow} :
    flow.findNested path = .ok found ↔
      segments path ≠ [] ∧ Leads flow (segments path) found.flow ∧
        found.label = " › ".intercalate (segments path) := by
  rw [findNested_eq_ok_iff, pathIds_eq_segments, leads_iff_foldlM]
  constructor
  · rintro ⟨id, ids, nested, hpath, hlabel, henter, hrest⟩
    rw [hpath]
    refine ⟨List.cons_ne_nil _ _, ?_, hlabel⟩
    rw [List.foldlM_cons, henter]
    exact hrest
  · rintro ⟨hne, hleads, hlabel⟩
    obtain ⟨id, ids, hpath⟩ := List.exists_cons_of_ne_nil hne
    rw [hpath, List.foldlM_cons, Option.bind_eq_bind,
      Option.bind_eq_some_iff] at hleads
    obtain ⟨nested, henter, hrest⟩ := hleads
    exact ⟨id, ids, nested, hpath, hpath ▸ hlabel, henter, hrest⟩

theorem error_of_findNested
    {flow : Flow} {path : String} {error : Error}
    (h : flow.findNested path = .error error) :
    error = .nestedFlowNotFound path := by
  unfold findNested at h
  dsimp only at h
  split at h
  · cases h
  · cases h
    rfl

/-- A path of two parts leads to where the second part leads from where the
first part leads. -/
theorem findNested_slash_eq_ok_iff
    {flow : Flow} {path path' : String} {found : NestedFlow}
    (hpath : segments path ≠ []) (hpath' : segments path' ≠ []) :
    flow.findNested (path ++ "/" ++ path') = .ok found ↔
      ∃ outer inner, flow.findNested path = .ok outer ∧
        outer.flow.findNested path' = .ok inner ∧
        found = ⟨outer.label ++ " › " ++ inner.label, inner.flow⟩ := by
  obtain ⟨label, target⟩ := found
  simp only [findNested_eq_ok_iff_leads, segments_append, leads_append_iff,
    String.intercalate_append_of_ne_nil hpath hpath']
  constructor
  · rintro ⟨-, ⟨middle, hfirst, hsecond⟩, rfl⟩
    exact ⟨⟨_, middle⟩, ⟨_, target⟩, ⟨hpath, hfirst, rfl⟩,
      ⟨hpath', hsecond, rfl⟩, rfl⟩
  · rintro ⟨outer, inner, ⟨-, hfirst, hlabel⟩, ⟨-, hsecond, hlabel'⟩, heq⟩
    obtain ⟨rfl, rfl⟩ := NestedFlow.mk.inj heq
    refine ⟨by simp [hpath], ⟨outer.flow, hfirst, hsecond⟩, ?_⟩
    rw [hlabel, hlabel']

end Flow

/-- A path leads along its segments, of which there has to be one, and where it
leads nowhere the error names the path as it is.  Two paths that are joined by
a slash lead to where the second one leads from where the first one leads. -/
theorem findNested_follows_segments (flow : Flow) (path path' : String) :
    (∀ found, flow.findNested path = .ok found ↔
      Flow.segments path ≠ [] ∧
        Flow.Leads flow (Flow.segments path) found.flow ∧
        found.label = " › ".intercalate (Flow.segments path)) ∧
    (∀ error, flow.findNested path = .error error →
      error = .nestedFlowNotFound path) ∧
    (Flow.segments path ≠ [] → Flow.segments path' ≠ [] →
      ∀ found, flow.findNested (path ++ "/" ++ path') = .ok found ↔
        ∃ outer inner, flow.findNested path = .ok outer ∧
          outer.flow.findNested path' = .ok inner ∧
          found = ⟨outer.label ++ " › " ++ inner.label, inner.flow⟩) :=
  ⟨fun _ => Flow.findNested_eq_ok_iff_leads,
    fun _ => Flow.error_of_findNested,
    fun hpath hpath' _ => Flow.findNested_slash_eq_ok_iff hpath hpath'⟩

/-- A plain step and, in a branch behind it, a workflow with the same id. -/
def harborFlow : Flow :=
  [.step (.plain "ship" none),
    .parallel [[.step ⟨"ship", none, true,
      some [.step ⟨"hold", none, true, some [.step (.plain "crate" none)],
        none⟩], none⟩]]]

theorem harborFlow_follows_segments :
    Flow.segments "ship / " = ["ship"] ∧ Flow.segments " hold/" = ["hold"] ∧
    harborFlow.findNested ("ship / " ++ "/" ++ " hold/") =
      .ok ⟨"ship › hold", [.step (.plain "crate" none)]⟩ := by
  have hship : Flow.segments "ship / " = ["ship"] := by decide
  have hhold : Flow.segments " hold/" = ["hold"] := by decide
  refine ⟨hship, hhold, ?_⟩
  have hjoined :=
    (findNested_follows_segments harborFlow "ship / " " hold/").2.2
    (hship ▸ List.cons_ne_nil _ _) (hhold ▸ List.cons_ne_nil _ _)
  exact (hjoined _).mpr ⟨_, _, rfl, rfl, rfl⟩

end Flowchart
