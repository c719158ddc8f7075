import Flowchart.Proofs.Settling

/-!
# What edges remember

An edge remembers the declared ids of the steps that it leaves and enters.  Both
can be read off the nodes that it joins: the node of a step is left and entered
under its label, and the other nodes hold the ids in their payload.  The one
exception are the ways out of a loop condition, which are left under the id of
the step that is run again.

An edge may be drawn before the node that it enters.  So edges are compared with
the list `nodes` of all nodes that the finished diagram will have, of which
every builder on the way holds the first ones.
-/

namespace Flowchart

/-! ## Nodes and edges -/

/-- The node stands for something that the document declares. -/
def Node.IsDeclared (node : Node) : Prop :=
  node.kind = .standard ∨ node.kind = .nested

namespace Diagram

/-- Edges remember the labels of the declared nodes that they join, whatever the
ids of these nodes are.  A condition node knows the id that it is entered under,
and it knows one of the ids that it is entered from, if there are any. -/
structure KeepsDeclaredIds (diagram : Diagram) : Prop where
  leaving : ∀ edge ∈ diagram.edges, ∀ node ∈ diagram.nodes,
    node.id = edge.source → node.IsDeclared →
    edge.previousStepId = node.payload.label
  entering : ∀ edge ∈ diagram.edges, ∀ node ∈ diagram.nodes,
    node.id = edge.target → node.IsDeclared →
    edge.nextStepId = node.payload.label
  entering_condition : ∀ edge ∈ diagram.edges, ∀ node ∈ diagram.nodes,
    node.id = edge.target → node.kind = .condition →
    node.payload.nextStepId = some edge.nextStepId
  condition_start : ∀ node ∈ diagram.nodes, node.kind = .condition →
    (node.payload.previousStepId = none ↔
      ∀ edge ∈ diagram.edges, edge.target ≠ node.id)
  condition_source : ∀ node ∈ diagram.nodes, node.kind = .condition →
    ∀ stepId ∈ node.payload.previousStepId,
      ∃ edge ∈ diagram.edges, edge.target = node.id ∧
        edge.previousStepId = stepId

end Diagram

namespace Node

/-- The id under which a node is left. -/
def leftAs (node : Node) : String :=
  match node.kind with
  | .standard | .nested => node.payload.label
  | .condition | .loopResult => node.payload.previousStepId.getD node.id

/-- The id under which a node is entered. -/
def enteredAs? (node : Node) : Option String :=
  match node.kind with
  | .standard | .nested => some node.payload.label
  | .condition => node.payload.nextStepId
  | .loopResult => node.payload.previousStepId

theorem leftAs_of_isDeclared {node : Node} (h : node.IsDeclared) :
    node.leftAs = node.payload.label := by
  rcases h with h | h <;> simp [leftAs, h]

theorem enteredAs?_of_isDeclared {node : Node} (h : node.IsDeclared) :
    node.enteredAs? = some node.payload.label := by
  rcases h with h | h <;> simp [enteredAs?, h]

theorem enteredAs?_of_condition {node : Node} (h : node.kind = .condition) :
    node.enteredAs? = node.payload.nextStepId := by
  simp [enteredAs?, h]

/-- The node is entered under the id, and a condition node holds the id of the
last one of the open ends. -/
structure Meets (node : Node) (incoming : Frontier) (stepId : String) :
    Prop where
  entered : node.enteredAs? = some stepId
  previous : node.kind = .condition →
    node.payload.previousStepId = Frontier.lastStepId? incoming

end Node

namespace Tail

variable (nodes : List Node)

/-- The open end is left under the id of its node. -/
def Leaves (tail : Tail) : Prop :=
  ∃ node ∈ nodes, node.id = tail.nodeId ∧ node.leftAs = tail.stepId

/-- The open end stands at a condition node. -/
def Branches (tail : Tail) : Prop :=
  ∃ node ∈ nodes, node.id = tail.nodeId ∧ node.kind = .condition

/-- The entry point is that of a node which meets the open ends. -/
def Enters (incoming : Frontier) (point : Tail) : Prop :=
  ∃ node ∈ nodes, node.id = point.nodeId ∧ node.Meets incoming point.stepId

end Tail

/-- The edge remembers what its nodes hold. -/
structure Edge.Recalls (edge : Edge) (source target : Node) : Prop where
  source_id : source.id = edge.source
  target_id : target.id = edge.target
  left : source.leftAs = edge.previousStepId ∨
    source.kind = .condition ∧ target.kind = .loopResult
  entered : target.enteredAs? = some edge.nextStepId
  previous : target.kind = .condition → target.payload.previousStepId ≠ none

/-- A condition node is joined to an end that it holds the id of. -/
def Node.Announces (nodes : List Node) (ends : List (String × String))
    (node : Node) : Prop :=
  node.kind = .condition → ∀ stepId ∈ node.payload.previousStepId,
    ∃ tail : Tail, tail.Leaves nodes ∧ tail.stepId = stepId ∧
      (tail.nodeId, node.id) ∈ ends

/-! ## Builders -/

namespace Builder

/-- Everything that is drawn so far agrees with the nodes of the diagram. -/
structure Faithful (nodes : List Node) (b : Builder) : Prop where
  edges : ∀ edge ∈ b.edges,
    ∃ source ∈ nodes, ∃ target ∈ nodes, edge.Recalls source target
  conditions : ∀ node ∈ b.nodes, node.Announces nodes b.ends

theorem faithful_empty (nodes : List Node) (style : EdgeStyle) :
    (empty style).Faithful nodes :=
  ⟨by simp [empty], by simp [empty]⟩

namespace Faithful

variable {nodes : List Node} {b : Builder} {incoming : Frontier}

theorem of_eq
    (h : b.Faithful nodes) {b' : Builder} (hnodes : b'.nodes = b.nodes)
    (hedges : b'.edges = b.edges) : b'.Faithful nodes where
  edges := hedges ▸ h.edges
  conditions := by
    rw [hnodes, ends, hedges]
    exact h.conditions

/-- An edge between nodes that agree with its ends. -/
theorem connect
    (h : b.Faithful nodes) {source target : Tail}
    (hedge : ∃ node ∈ nodes, ∃ node' ∈ nodes,
      (b.freshEdge source target).Recalls node node') :
    (b.connect source target).Faithful nodes where
  edges := by
    by_cases hwired : (source.nodeId, target.nodeId) ∈ b.ends
    · rw [connect_of_mem hwired]
      exact h.edges
    · rw [connect_of_notMem hwired]
      intro edge hmem
      rcases List.mem_append.mp hmem with hold | hnew
      · exact h.edges edge hold
      · rw [List.mem_singleton.mp hnew]
        exact hedge
  conditions := by
    rw [connect_nodes]
    intro node hnode hkind stepId hstepId
    obtain ⟨tail, hleaves, hstep, hends⟩ :=
      h.conditions node hnode hkind stepId hstepId
    exact ⟨tail, hleaves, hstep, mem_ends_connect.mpr (Or.inl hends)⟩

/-- Open ends are joined to points that meet them. -/
theorem connectAll
    (h : b.Faithful nodes) {points : Frontier}
    (hin : ∀ tail ∈ incoming, tail.Leaves nodes)
    (hpoints : ∀ point ∈ points, point.Enters nodes incoming) :
    (b.connectAll incoming points).Faithful nodes := by
  refine connectAll_induction h ?_
  intro b' tail htail point hpoint hb'
  obtain ⟨source, hsource, hsourceId, hleft⟩ := hin tail htail
  obtain ⟨target, htarget, htargetId, hmeets⟩ := hpoints point hpoint
  refine hb'.connect ⟨source, hsource, target, htarget, hsourceId, htargetId,
    Or.inl hleft, hmeets.entered, ?_⟩
  intro hkind
  rw [hmeets.previous hkind, Frontier.lastStepId?, Ne, Option.map_eq_none_iff,
    List.getLast?_eq_none_iff]
  exact List.ne_nil_of_mem htail

theorem push
    (h : b.Faithful nodes) {id : String} {kind : NodeKind} {payload : Payload}
    (hnode : Node.Announces nodes b.ends ⟨id, kind, payload⟩) :
    (b.push id kind payload).Faithful nodes where
  edges := h.edges
  conditions := by
    intro node hmem
    rcases List.mem_append.mp hmem with hold | hnew
    · exact h.conditions node hold
    · rw [List.mem_singleton.mp hnew]
      exact hnode

/-- The node of a point that is joined to the open ends.  A condition node
holds the id of the last of them. -/
theorem push_connectAll
    (h : b.Faithful nodes) {point : Tail} {kind : NodeKind} {payload : Payload}
    (hin : ∀ tail ∈ incoming, tail.Leaves nodes)
    (henters : point.Enters nodes incoming)
    (hprevious : kind = .condition →
      payload.previousStepId = Frontier.lastStepId? incoming) :
    ((b.push point.nodeId kind payload).connectAll incoming
      [point]).Faithful nodes := by
  rw [connectAll_push]
  refine (h.connectAll hin (by simpa using henters)).push ?_
  intro hkind stepId hstepId
  rw [Option.mem_def, hprevious hkind, Frontier.lastStepId?,
    Option.map_eq_some_iff] at hstepId
  obtain ⟨last, hlast, rfl⟩ := hstepId
  have hmem : last ∈ incoming := List.mem_of_getLast? hlast
  exact ⟨last, hin last hmem, rfl, mem_ends_connectAll.mpr (Or.inr
    (List.mem_product.mpr ⟨List.mem_map_of_mem hmem, by simp⟩))⟩

end Faithful

/-! ## Drawings -/

/-- The result of a drawing behind the open ends `incoming`, seen from the nodes
of the finished diagram, if those that are drawn are the first of them.  The
nodes of the points meet the open ends, the open ends that the drawing yields
are left under the ids of their nodes, and everything that is drawn agrees. -/
structure Agrees (nodes : List Node) (incoming points : Frontier) (b : Builder)
    (result : Frontier × Builder) : Prop where
  grows : Grows b result.2
  points : result.2.nodes <+: nodes → (∀ tail ∈ incoming, tail.Leaves nodes) →
    ∀ point ∈ points, point.Enters nodes incoming
  tips : result.2.nodes <+: nodes → (∀ tail ∈ incoming, tail.Leaves nodes) →
    ∀ tail ∈ result.1, tail.Leaves nodes
  faithful : result.2.nodes <+: nodes →
    (∀ tail ∈ incoming, tail.Leaves nodes) → b.Faithful nodes →
    result.2.Faithful nodes

namespace Agrees

variable {nodes : List Node} {incoming points others : Frontier} {b : Builder}

theorem nothing (incoming : Frontier) (b : Builder) :
    Agrees nodes incoming [] b ([], b) where
  grows := Grows.refl b
  points _ _ := by simp
  tips _ _ := by simp
  faithful _ _ hb := hb

theorem unchanged (incoming : Frontier) (b : Builder) :
    Agrees nodes incoming [] b (incoming, b) where
  grows := Grows.refl b
  points _ _ := by simp
  tips _ hin := hin
  faithful _ _ hb := hb

/-- A drawing behind the open ends of another one. -/
theorem andThen
    {result result' : Frontier × Builder}
    (h : Agrees nodes incoming points b result)
    (h' : Agrees nodes result.1 [] result.2 result') :
    Agrees nodes incoming points b result' where
  grows := h.grows.trans h'.grows
  points hnodes hin := h.points (h'.grows.nodes.trans hnodes) hin
  tips hnodes hin :=
    h'.tips hnodes (h.tips (h'.grows.nodes.trans hnodes) hin)
  faithful hnodes hin hb :=
    h'.faithful hnodes (h.tips (h'.grows.nodes.trans hnodes) hin)
      (h.faithful (h'.grows.nodes.trans hnodes) hin hb)

/-- Two drawings behind the same open ends. -/
theorem append
    {result result' : Frontier × Builder}
    (h : Agrees nodes incoming points b result)
    (h' : Agrees nodes incoming others result.2 result') :
    Agrees nodes incoming (points ++ others) b
      (result.1 ++ result'.1, result'.2) where
  grows := h.grows.trans h'.grows
  points hnodes hin point hpoint :=
    (List.mem_append.mp hpoint).elim
      (h.points (h'.grows.nodes.trans hnodes) hin point)
      (h'.points hnodes hin point)
  tips hnodes hin tail htail :=
    (List.mem_append.mp htail).elim
      (h.tips (h'.grows.nodes.trans hnodes) hin tail)
      (h'.tips hnodes hin tail)
  faithful hnodes hin hb :=
    h'.faithful hnodes hin
      (h.faithful (h'.grows.nodes.trans hnodes) hin hb)

/-- A drawing whose own open ends are left open. -/
theorem forget
    {result : Frontier × Builder} (h : Agrees nodes incoming points b result) :
    Agrees nodes incoming points b ([], result.2) where
  grows := h.grows
  points := h.points
  tips _ _ := by simp
  faithful := h.faithful

/-- Only diagrams that contain the drawing matter. -/
theorem of_drawn
    {result : Frontier × Builder} (hgrows : Grows b result.2)
    (h : result.2.nodes <+: nodes → Agrees nodes incoming points b result) :
    Agrees nodes incoming points b result where
  grows := hgrows
  points hnodes := (h hnodes).points hnodes
  tips hnodes := (h hnodes).tips hnodes
  faithful hnodes := (h hnodes).faithful hnodes

theorem of_claims
    {b' : Builder} {result : Frontier × Builder}
    (hclaims : Claims b b' points)
    (h : Agrees nodes incoming points b' result) :
    Agrees nodes incoming [] b result where
  grows := hclaims.grows.trans h.grows
  points _ _ := by simp
  tips := h.tips
  faithful hnodes hin hb :=
    h.faithful hnodes hin (hb.of_eq hclaims.nodes hclaims.edges)

/-- The points may be joined to what comes before ahead of their nodes. -/
theorem of_connectAll
    {result : Frontier × Builder}
    (h : Agrees nodes incoming points (b.connectAll incoming points) result) :
    Agrees nodes incoming points b result where
  grows := (grows_connectAll b incoming points).trans h.grows
  points := h.points
  tips := h.tips
  faithful hnodes hin hb :=
    h.faithful hnodes hin (hb.connectAll hin (h.points hnodes hin))

end Agrees

/-- The node of a point is drawn and joined to the open ends that it meets. -/
theorem push_agrees
    {nodes : List Node} {incoming : Frontier} {b : Builder} {point : Tail}
    {kind : NodeKind} {payload : Payload} {left : String}
    (hmeets : Node.Meets ⟨point.nodeId, kind, payload⟩ incoming point.stepId)
    (hleft : Node.leftAs ⟨point.nodeId, kind, payload⟩ = left) :
    Agrees nodes incoming [point] b
      ([⟨point.nodeId, left⟩],
        (b.push point.nodeId kind payload).connectAll incoming [point]) := by
  have hmem : ((b.push point.nodeId kind payload).connectAll incoming
      [point]).nodes <+: nodes →
      (⟨point.nodeId, kind, payload⟩ : Node) ∈ nodes := by
    intro hnodes
    refine hnodes.subset ?_
    simp [push_nodes]
  refine ⟨(grows_push b _ _ _).trans (grows_connectAll _ _ _), ?_, ?_, ?_⟩
  · intro hnodes _ point' hpoint'
    rw [List.mem_singleton.mp hpoint']
    exact ⟨_, hmem hnodes, rfl, hmeets⟩
  · intro hnodes _ tail htail
    rw [List.mem_singleton.mp htail]
    exact ⟨_, hmem hnodes, rfl, hleft⟩
  · intro hnodes hin hb
    exact hb.push_connectAll hin ⟨_, hmem hnodes, rfl, hmeets⟩ hmeets.previous

/-- A way out of a loop condition is drawn behind the condition. -/
theorem push_outcome_agrees
    {nodes : List Node} {incoming : Frontier} {b : Builder}
    {condition point : Tail} {payload : Payload}
    (hcondition : condition.Branches nodes)
    (hentered : payload.previousStepId = some point.stepId) :
    Agrees nodes incoming [point] b
      ([point],
        (b.push point.nodeId .loopResult payload).connect condition point) := by
  have hmem : ((b.push point.nodeId .loopResult payload).connect condition
      point).nodes <+: nodes →
      (⟨point.nodeId, .loopResult, payload⟩ : Node) ∈ nodes := by
    intro hnodes
    refine hnodes.subset ?_
    simp [push_nodes]
  refine ⟨(grows_push b _ _ _).trans (grows_connect _ _ _), ?_, ?_, ?_⟩
  · intro hnodes _ point' hpoint'
    rw [List.mem_singleton.mp hpoint']
    exact ⟨_, hmem hnodes, rfl, hentered, by simp⟩
  · intro hnodes _ tail htail
    rw [List.mem_singleton.mp htail]
    exact ⟨_, hmem hnodes, rfl, by simp [Node.leftAs, hentered]⟩
  · intro hnodes _ hb
    obtain ⟨source, hsource, hid, hkind⟩ := hcondition
    exact (hb.push (by simp [Node.Announces])).connect
      ⟨source, hsource, _, hmem hnodes, hid, rfl, Or.inr ⟨hkind, rfl⟩,
        hentered, by simp⟩

/-! ## The finished diagram -/

theorem eq_of_id_eq
    {b : Builder} (hnodup : b.nodeIds.Nodup) {node node' : Node}
    (hnode : node ∈ b.nodes) (hnode' : node' ∈ b.nodes)
    (hid : node.id = node'.id) : node = node' :=
  List.inj_on_of_nodup_map hnodup hnode hnode' hid

namespace Faithful

variable {b : Builder} {edge : Edge} {node : Node}

theorem recalls_source
    (h : b.Faithful b.nodes) (hnodup : b.nodeIds.Nodup) (hedge : edge ∈ b.edges)
    (hnode : node ∈ b.nodes) (hid : node.id = edge.source) :
    ∃ target, edge.Recalls node target := by
  obtain ⟨source, hsource, target, -, hrecalls⟩ := h.edges edge hedge
  rw [eq_of_id_eq hnodup hnode hsource (hid.trans hrecalls.source_id.symm)]
  exact ⟨target, hrecalls⟩

theorem recalls_target
    (h : b.Faithful b.nodes) (hnodup : b.nodeIds.Nodup) (hedge : edge ∈ b.edges)
    (hnode : node ∈ b.nodes) (hid : node.id = edge.target) :
    ∃ source ∈ b.nodes, edge.Recalls source node := by
  obtain ⟨source, hsource, target, htarget, hrecalls⟩ := h.edges edge hedge
  rw [eq_of_id_eq hnodup hnode htarget (hid.trans hrecalls.target_id.symm)]
  exact ⟨source, hsource, hrecalls⟩

/-- The id that a condition node holds is remembered by an edge into it. -/
theorem exists_edge
    (h : b.Faithful b.nodes) (hnodup : b.nodeIds.Nodup)
    (hnode : node ∈ b.nodes) (hkind : node.kind = .condition) {stepId : String}
    (hstepId : stepId ∈ node.payload.previousStepId) :
    ∃ edge ∈ b.edges, edge.target = node.id ∧ edge.previousStepId = stepId := by
  obtain ⟨tail, ⟨source, hsource, hid, hleft⟩, rfl, hends⟩ :=
    h.conditions node hnode hkind stepId hstepId
  obtain ⟨edge, hedge, hpair⟩ := List.mem_map.mp hends
  obtain ⟨hedgeSource, hedgeTarget⟩ := Prod.mk.inj hpair
  obtain ⟨source', hsource', hrecalls⟩ :=
    h.recalls_target hnodup hedge hnode hedgeTarget.symm
  have hsame : source' = source := eq_of_id_eq hnodup hsource' hsource
    (hrecalls.source_id.trans (hedgeSource.trans hid.symm))
  refine ⟨edge, hedge, hedgeTarget, ?_⟩
  rcases hrecalls.left with hleft' | ⟨-, hresult⟩
  · rw [← hleft', hsame, hleft]
  · rw [hkind] at hresult
    cases hresult

/-- Once all nodes are drawn, no two with the same id, what edges remember is
found in the nodes that they join. -/
theorem keepsDeclaredIds
    (h : b.Faithful b.nodes) (hnodup : b.nodeIds.Nodup) :
    b.finish.KeepsDeclaredIds where
  leaving := by
    intro edge hedge _ hfinished hid hdeclared
    obtain ⟨node, hnode, rfl⟩ := List.mem_map.mp hfinished
    have hdeclared : node.IsDeclared := hdeclared
    obtain ⟨target, hrecalls⟩ := h.recalls_source hnodup hedge hnode hid
    rcases hrecalls.left with hleft | ⟨hkind, -⟩
    · exact hleft.symm.trans (Node.leftAs_of_isDeclared hdeclared)
    · rw [Node.IsDeclared, hkind] at hdeclared
      simp at hdeclared
  entering := by
    intro edge hedge _ hfinished hid hdeclared
    obtain ⟨node, hnode, rfl⟩ := List.mem_map.mp hfinished
    obtain ⟨source, -, hrecalls⟩ := h.recalls_target hnodup hedge hnode hid
    have hdeclared : node.IsDeclared := hdeclared
    exact Option.some.inj (hrecalls.entered.symm.trans
      (Node.enteredAs?_of_isDeclared hdeclared))
  entering_condition := by
    intro edge hedge _ hfinished hid hkind
    obtain ⟨node, hnode, rfl⟩ := List.mem_map.mp hfinished
    obtain ⟨source, -, hrecalls⟩ := h.recalls_target hnodup hedge hnode hid
    have hkind : node.kind = .condition := hkind
    exact (Node.enteredAs?_of_condition hkind).symm.trans hrecalls.entered
  condition_start := by
    intro _ hfinished hkind
    obtain ⟨node, hnode, rfl⟩ := List.mem_map.mp hfinished
    constructor
    · intro hnone edge hedge hid
      obtain ⟨source, -, hrecalls⟩ :=
        h.recalls_target hnodup hedge hnode hid.symm
      exact hrecalls.previous hkind hnone
    · intro hfree
      by_contra hsome
      obtain ⟨stepId, hstepId⟩ := Option.ne_none_iff_exists'.mp hsome
      obtain ⟨edge, hedge, hid, -⟩ := h.exists_edge hnodup hnode hkind hstepId
      exact hfree edge hedge hid
  condition_source := by
    intro _ hfinished hkind stepId hstepId
    obtain ⟨node, hnode, rfl⟩ := List.mem_map.mp hfinished
    exact h.exists_edge hnodup hnode hkind hstepId

end Faithful

end Builder

end Flowchart
