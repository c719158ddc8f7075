import Flowchart.Drawing.Basic
import Flowchart.Proofs.WellFormed

/-!
# Sizes in a layout

A drawing of a layout shows the same nodes and edges as a drawing without
places, and every node has the size that is due to it, unless its id is that of
a dummy: the layout keeps the sizes of nodes and of dummies in one table, where
the dummy, which takes no room, replaces the node.
-/

namespace Flowchart

/-! ## Tables -/

namespace Layout

section Tables

variable {α β : Type} (key : β → String) (value : β → α)

theorem getElem?_foldl_insert_of_notMem
    {items : List β} {id : String} (hid : id ∉ items.map key)
    (table : Table α) :
    (items.foldl (fun t x => t.insert (key x) (value x)) table)[id]? =
      table[id]? := by
  induction items generalizing table with
  | nil => rfl
  | cons item items ih =>
      simp only [List.map_cons, List.mem_cons, not_or] at hid
      have hne : key item ≠ id := fun h => hid.1 h.symm
      rw [List.foldl_cons, ih hid.2, Std.TreeMap.getElem?_insert]
      simp [hne]

/-- A key that always comes with the same value is found with this value. -/
theorem getElem?_foldl_insert_of_mem
    {items : List β} {id : String} {a : α} (hid : id ∈ items.map key)
    (hvalue : ∀ item ∈ items, key item = id → value item = a)
    (table : Table α) :
    (items.foldl (fun t x => t.insert (key x) (value x)) table)[id]? =
      some a := by
  induction items generalizing table with
  | nil => simp at hid
  | cons item items ih =>
      rw [List.foldl_cons]
      by_cases hlater : id ∈ items.map key
      · exact ih hlater (fun x hx => hvalue x (List.mem_cons_of_mem _ hx)) _
      · have hkey : key item = id := by
          rcases List.mem_cons.mp hid with hhead | htail
          · exact hhead.symm
          · exact absurd htail hlater
        rw [getElem?_foldl_insert_of_notMem key value hlater,
          hvalue item List.mem_cons_self hkey, hkey]
        simp

end Tables

variable {α : Type} [Scalar α] {measures : Measures α}

/-- A node whose id is that of a dummy takes no room. -/
theorem sizeAt_sizesOf
    {nodes : List Node} (hnodup : (nodes.map Node.id).Nodup) {node : Node}
    (hnode : node ∈ nodes) (dummies : List String) :
    sizeAt (sizesOf measures nodes dummies) node.id =
      if node.id ∈ dummies then .zero else measures.nodeSize node := by
  have hsize : ∀ other ∈ nodes, other.id = node.id →
      measures.nodeSize other = measures.nodeSize node := by
    intro other hother heq
    rw [List.inj_on_of_nodup_map hnodup hother hnode heq]
  have hreal := getElem?_foldl_insert_of_mem Node.id measures.nodeSize
    (List.mem_map_of_mem hnode) hsize ∅
  unfold sizeAt sizesOf
  rw [Std.TreeMap.getD_eq_getD_getElem?]
  generalize nodes.foldl _ _ = sizes at hreal ⊢
  by_cases hdummy : node.id ∈ dummies
  · have hlast : (dummies.foldl (fun sizes dummy =>
        sizes.insert dummy .zero) sizes)[node.id]? = some .zero :=
      getElem?_foldl_insert_of_mem (fun dummy => dummy) (fun _ => .zero)
        (by simpa using hdummy) (fun _ _ _ => rfl) sizes
    simp only [hlast, hdummy, if_true, Option.getD_some]
  · have hlast : (dummies.foldl (fun sizes dummy =>
        sizes.insert dummy .zero) sizes)[node.id]? = sizes[node.id]? :=
      getElem?_foldl_insert_of_notMem (fun dummy => dummy) (fun _ => .zero)
        (by simpa using hdummy) sizes
    simp only [hlast, hreal, hdummy, if_false, Option.getD_some]

/-! ## Dummies -/

theorem routesFrom_dummies
    {ranks : Ranks} {number : Nat} {arcs : List Arc} {route : Route}
    (hroute : route ∈ routesFrom ranks number arcs) :
    ∀ dummy ∈ route.dummies, ∃ n, dummy = dummyId n := by
  induction arcs generalizing number with
  | nil => simp [routesFrom] at hroute
  | cons arc arcs ih =>
      rw [routesFrom] at hroute
      split at hroute
      · exact ih hroute
      · rcases List.mem_cons.mp hroute with rfl | hlater
        · intro dummy hdummy
          obtain ⟨n, -, rfl⟩ := List.mem_map.mp hdummy
          exact ⟨n, rfl⟩
        · exact ih hlater

theorem Layers.exists_eq_dummyId
    {ids : List String} {arcs : List Arc} :
    ∀ dummy ∈ (Layers.ofGraph ids arcs).dummies, ∃ n, dummy = dummyId n := by
  intro dummy hdummy
  obtain ⟨entry, hentry, rfl⟩ := List.mem_map.mp hdummy
  obtain ⟨route, hroute, hranked⟩ := List.mem_flatMap.mp hentry
  exact routesFrom_dummies hroute _ (List.of_mem_zip hranked).1

end Layout

/-! ## Drawings -/

/-- What is drawn, apart from the place. -/
def DrawnNode.content {α : Type} (drawn : DrawnNode α) :
    String × NodeKind × Payload × Layout.Size α :=
  (drawn.id, drawn.kind, drawn.payload, drawn.size)

/-- Two drawings differ at most in the places of their nodes and in the room
that they take. -/
structure Drawing.Matches {α : Type} (a b : Drawing α) : Prop where
  label : a.label = b.label
  nodes : a.nodes.map DrawnNode.content = b.nodes.map DrawnNode.content
  edges : a.edges = b.edges

namespace Diagram

open Layout

variable {α : Type} [Scalar α]

/-- Laying a diagram out keeps its nodes in their order, with sizes from the
table of the layout. -/
theorem place_nodes (measures : Measures α) (diagram : Diagram) :
    (diagram.place measures).nodes.map (fun entry => (entry.node, entry.size)) =
      diagram.nodes.map fun node =>
        (node, sizeAt (sizesOf measures diagram.nodes diagram.layers.dummies)
          node.id) := by
  unfold place
  by_cases hempty : diagram.isEmpty
  · have hnil : diagram.nodes = [] := List.isEmpty_iff.mp hempty
    simp [hempty, hnil]
  · simp [hempty, toOrigin, placeNodes]

theorem ofPlaced_contents
    (measures : Measures α) {diagram : Diagram}
    (hnodup : diagram.nodeIds.Nodup) :
    (Drawing.ofPlaced (diagram.place measures)).nodes.map DrawnNode.content =
      diagram.nodes.map fun node =>
        (node.id, node.kind, node.payload,
          if node.id ∈ diagram.layers.dummies then .zero
          else measures.nodeSize node) := by
  have hplaced := congrArg (List.map fun (entry : Node × Size α) =>
    (entry.1.id, entry.1.kind, entry.1.payload, entry.2))
    (place_nodes measures diagram)
  simp only [List.map_map, Function.comp_def] at hplaced
  simp only [Drawing.ofPlaced, List.map_map, Function.comp_def,
    DrawnNode.content, hplaced]
  refine List.map_congr_left fun node hnode => ?_
  rw [sizeAt_sizesOf hnodup hnode]

theorem ofDiagram_contents (measures : Measures α) (diagram : Diagram) :
    (Drawing.ofDiagram measures diagram).nodes.map DrawnNode.content =
      diagram.nodes.map fun node =>
        (node.id, node.kind, node.payload, measures.nodeSize node) := by
  simp [Drawing.ofDiagram, Function.comp_def, DrawnNode.content]

theorem matches_iff
    (measures : Measures α) {diagram : Diagram}
    (hnodup : diagram.nodeIds.Nodup) :
    (Drawing.ofPlaced (diagram.place measures)).Matches
        (Drawing.ofDiagram measures diagram) ↔
      ∀ node ∈ diagram.nodes, node.id ∈ diagram.layers.dummies →
        measures.nodeSize node = .zero := by
  have hcontents :
      (Drawing.ofPlaced (diagram.place measures)).nodes.map DrawnNode.content =
          (Drawing.ofDiagram measures diagram).nodes.map DrawnNode.content ↔
        ∀ node ∈ diagram.nodes, node.id ∈ diagram.layers.dummies →
          measures.nodeSize node = .zero := by
    rw [ofPlaced_contents measures hnodup, ofDiagram_contents,
      List.map_inj_left]
    refine forall₂_congr fun node _ => ?_
    by_cases hdummy : node.id ∈ diagram.layers.dummies
    · simp [hdummy, eq_comm]
    · simp [hdummy]
  exact ⟨fun h => hcontents.mp h.nodes,
    fun h => ⟨rfl, hcontents.mpr h, rfl⟩⟩

/-- What a layout keeps of a diagram, and what it does not keep. -/
structure LayoutKeeps (measures : Measures α) (diagram : Diagram) : Prop where
  /-- A node takes no room if it has the id of a dummy. -/
  contents :
    (Drawing.ofPlaced (diagram.place measures)).nodes.map DrawnNode.content =
      diagram.nodes.map fun node =>
        (node.id, node.kind, node.payload,
          if node.id ∈ diagram.layers.dummies then .zero
          else measures.nodeSize node)
  edges : (Drawing.ofPlaced (diagram.place measures)).edges = diagram.edges
  matches_iff :
    (Drawing.ofPlaced (diagram.place measures)).Matches
        (Drawing.ofDiagram measures diagram) ↔
      ∀ node ∈ diagram.nodes, node.id ∈ diagram.layers.dummies →
        measures.nodeSize node = .zero
  matches_of_free :
    (∀ n, dummyId n ∉ diagram.nodeIds) →
      (Drawing.ofPlaced (diagram.place measures)).Matches
        (Drawing.ofDiagram measures diagram)

theorem layoutKeeps
    (measures : Measures α) {diagram : Diagram}
    (hnodup : diagram.nodeIds.Nodup) : diagram.LayoutKeeps measures where
  contents := ofPlaced_contents measures hnodup
  edges := rfl
  matches_iff := matches_iff measures hnodup
  matches_of_free := by
    intro hfree
    rw [matches_iff measures hnodup]
    intro node hnode hdummy
    obtain ⟨n, hn⟩ := Layers.exists_eq_dummyId _ hdummy
    exact absurd (hn ▸ List.mem_map_of_mem hnode) (hfree n)

end Diagram

open Layout

/-- A layout changes nothing but places, apart from the sizes of nodes whose ids
are those of dummies. -/
theorem layouts_keep_diagrams
    {α : Type} [Scalar α] (measures : Measures α) (style : EdgeStyle) :
    (∀ flow diagram, Diagram.ofFlow style flow = .ok diagram →
      diagram.LayoutKeeps measures) ∧
    (∀ w diagram, Diagram.ofWorkflow style w = .ok diagram →
      diagram.LayoutKeeps measures) :=
  ⟨fun _ _ h => Diagram.layoutKeeps measures
      (Diagram.ofFlow_wellFormed h).nodeIds_nodup,
    fun _ _ h => Diagram.layoutKeeps measures
      (Diagram.ofWorkflow_wellFormed h).nodeIds_nodup⟩

def exactMeasures : Measures Rat where
  nodeWidth := 274
  nodeHeight := 100
  largeNodeHeight := 260
  nodeSpacing := 50
  rankSpacing := 50
  orderPasses := 4

theorem clashing_layouts_keep :
    (∃ diagram, Diagram.ofFlow .standard clashingFlow = .ok diagram ∧
      diagram.LayoutKeeps exactMeasures) ∧
    ∃ diagram, Diagram.ofWorkflow .standard clashingWorkflow = .ok diagram ∧
      diagram.LayoutKeeps exactMeasures := by
  constructor
  · have hok := Diagram.ofFlow_eq_ok
      (by decide : Entry.flowMismatch? 0 false clashingFlow.foldElse = none)
      .standard
    exact ⟨_, hok, (layouts_keep_diagrams exactMeasures .standard).1 _ _ hok⟩
  · have hwaiting : clashingWorkflow.schedule.waiting = [] :=
      List.isEmpty_iff.mp (by decide +kernel)
    obtain ⟨diagram, hok⟩ := Workflow.exists_ofWorkflow_eq_ok hwaiting .standard
    exact ⟨diagram, hok,
      (layouts_keep_diagrams exactMeasures .standard).2 _ _ hok⟩

/-- The edge from `__dummy_0__` to `c` passes by `b`, through a dummy. -/
def dummyNamedFlow : Flow :=
  [.parallel
      [[.step (.plain "a" none), .step (.plain "b" none)],
        [.step (.plain "__dummy_0__" none)]],
    .step (.plain "c" none)]

/-- The node that has the id of the dummy loses its size. -/
theorem dummyNamedFlow_shrinks :
    ∃ diagram, Diagram.ofFlow .standard dummyNamedFlow = .ok diagram ∧
      ¬ (Drawing.ofPlaced (diagram.place exactMeasures)).Matches
        (Drawing.ofDiagram exactMeasures diagram) := by
  have hok := Diagram.ofFlow_eq_ok
    (by decide : Entry.flowMismatch? 0 false dummyNamedFlow.foldElse = none)
    .standard
  refine ⟨_, hok, ?_⟩
  rw [Diagram.matches_iff exactMeasures
    (Diagram.ofFlow_wellFormed hok).nodeIds_nodup]
  intro hzero
  have hnamed : ∃ node ∈
      (Diagram.ofFoldedFlow .standard dummyNamedFlow.foldElse).nodes,
      node.id = "__dummy_0__" := by
    decide +kernel
  have hdummy : "__dummy_0__" ∈
      (Diagram.ofFoldedFlow .standard
        dummyNamedFlow.foldElse).layers.dummies := by
    decide +kernel
  obtain ⟨node, hnode, hid⟩ := hnamed
  have hwidth := congrArg Size.width (hzero node hnode (hid ▸ hdummy))
  exact absurd hwidth (by decide +kernel : (274 : Rat) ≠ 0.0)

end Flowchart
