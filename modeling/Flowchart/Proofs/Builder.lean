import Flowchart.Diagram.Builder
import Flowchart.Proofs.FreeNames

/-!
# What builders keep

A builder only ever adds to what it holds, and it adds in an order of its own:
ids are claimed first, nodes follow, and edges are drawn between ids that are
claimed.  `Builder.Sound` states what holds between any two steps.  Its second
argument lists the ids that are claimed but do not have their nodes yet; once
that list is empty, the finished diagram is well formed.
-/

namespace Flowchart

open Names

/-! ## The ends of edges -/

/-- The ids of the nodes that an edge joins. -/
def Edge.ends (edge : Edge) : String × String :=
  (edge.source, edge.target)

/-- The text that the id of an edge is made from. -/
def Edge.baseId (edge : Edge) : String :=
  "e" ++ edge.source ++ "-" ++ edge.target

namespace Diagram

/-- The ids of the nodes in their order. -/
def nodeIds (diagram : Diagram) : List String :=
  diagram.nodes.map Node.id

/-- The pairs of nodes that are joined, in the order of the edges. -/
def ends (diagram : Diagram) : List (String × String) :=
  diagram.edges.map Edge.ends

/-- Ids tell nodes and edges apart, edges join nodes that are there and join
them once, and the handles of a node show whether edges enter and leave it. -/
structure WellFormed (diagram : Diagram) : Prop where
  nodeIds_nodup : diagram.nodeIds.Nodup
  ends_nodes : ∀ edge ∈ diagram.edges,
    edge.source ∈ diagram.nodeIds ∧ edge.target ∈ diagram.nodeIds
  ends_nodup : diagram.ends.Nodup
  edgeIds_nodup : (diagram.edges.map Edge.id).Nodup
  edgeIds_variant : ∀ edge ∈ diagram.edges, IsVariant edge.baseId edge.id
  topHandle : ∀ node ∈ diagram.nodes,
    (node.payload.withoutTopHandle = true ↔
      ∀ edge ∈ diagram.edges, edge.target ≠ node.id)
  bottomHandle : ∀ node ∈ diagram.nodes,
    (node.payload.withoutBottomHandle = true ↔
      ∀ edge ∈ diagram.edges, edge.source ≠ node.id)

end Diagram

namespace Frontier

/-- The ids of the nodes that the open ends stand at. -/
def nodeIds (frontier : Frontier) : List String :=
  frontier.map Tail.nodeId

@[simp] theorem nodeIds_nil : nodeIds [] = [] := rfl

@[simp] theorem nodeIds_cons (tail : Tail) (frontier : Frontier) :
    nodeIds (tail :: frontier) = tail.nodeId :: nodeIds frontier := rfl

@[simp] theorem nodeIds_append (frontier others : Frontier) :
    nodeIds (frontier ++ others) = nodeIds frontier ++ nodeIds others :=
  List.map_append

end Frontier

namespace Builder

/-- The ids of the nodes in their order. -/
def nodeIds (b : Builder) : List String :=
  b.nodes.map Node.id

/-- The pairs of nodes that are joined, in the order of the edges. -/
def ends (b : Builder) : List (String × String) :=
  b.edges.map Edge.ends

/-! ## Single steps -/

@[simp] theorem claim_nodes (b : Builder) (declared : String) (rank : Nat) :
    (b.claim declared rank).2.nodes = b.nodes := rfl

@[simp] theorem claim_edges (b : Builder) (declared : String) (rank : Nat) :
    (b.claim declared rank).2.edges = b.edges := rfl

@[simp] theorem claim_claimed (b : Builder) (declared : String) (rank : Nat) :
    (b.claim declared rank).2.claimed =
      (b.claim declared rank).1 :: b.claimed := rfl

theorem claim_notMem (b : Builder) (declared : String) (rank : Nat) :
    (b.claim declared rank).1 ∉ b.claimed :=
  nodeId_notMem b.claimed declared rank

theorem claim_isRenaming (b : Builder) (declared : String) (rank : Nat) :
    IsRenaming declared rank (b.claim declared rank).1 :=
  nodeId_isRenaming b.claimed declared rank

@[simp] theorem push_edges
    (b : Builder) (id : String) (kind : NodeKind) (payload : Payload) :
    (b.push id kind payload).edges = b.edges := rfl

@[simp] theorem push_claimed
    (b : Builder) (id : String) (kind : NodeKind) (payload : Payload) :
    (b.push id kind payload).claimed = b.claimed := rfl

theorem push_nodes
    (b : Builder) (id : String) (kind : NodeKind) (payload : Payload) :
    (b.push id kind payload).nodes = b.nodes ++ [⟨id, kind, payload⟩] := rfl

theorem isWired_iff (b : Builder) (source target : String) :
    b.isWired source target = true ↔ (source, target) ∈ b.ends := by
  simp [isWired, ends, Edge.ends]

/-- The edge between two entry points that are not joined yet. -/
def freshEdge (b : Builder) (source target : Tail) : Edge :=
  ⟨edgeId (b.edges.map Edge.id) source.nodeId target.nodeId, source.nodeId,
    target.nodeId, source.stepId, target.stepId, b.style⟩

theorem connect_of_mem
    {b : Builder} {source target : Tail}
    (hwired : (source.nodeId, target.nodeId) ∈ b.ends) :
    b.connect source target = b := by
  rw [← isWired_iff] at hwired
  simp [connect, hwired]

theorem connect_of_notMem
    {b : Builder} {source target : Tail}
    (hfree : (source.nodeId, target.nodeId) ∉ b.ends) :
    b.connect source target =
      { b with edges := b.edges ++ [b.freshEdge source target] } := by
  rw [← isWired_iff] at hfree
  simp [connect, hfree, freshEdge]

theorem mem_ends_connect
    {b : Builder} {source target : Tail} {pair : String × String} :
    pair ∈ (b.connect source target).ends ↔
      pair ∈ b.ends ∨ pair = (source.nodeId, target.nodeId) := by
  by_cases hwired : (source.nodeId, target.nodeId) ∈ b.ends
  · rw [connect_of_mem hwired]
    constructor
    · exact Or.inl
    · rintro (hold | rfl)
      · exact hold
      · exact hwired
  · rw [connect_of_notMem hwired]
    simp [ends, freshEdge, Edge.ends]

/-! ## Joining open ends to entry points -/

/-- What every single connection keeps is kept by all of them together. -/
theorem connectAll_induction
    {P : Builder → Prop} {sources targets : Frontier} {b : Builder}
    (hstart : P b)
    (hstep : ∀ b, ∀ source ∈ sources, ∀ target ∈ targets,
      P b → P (b.connect source target)) :
    P (b.connectAll sources targets) := by
  refine List.foldlRecOn sources _ hstart ?_
  intro b hb source hsource
  refine List.foldlRecOn targets _ hb ?_
  intro b hb target htarget
  exact hstep b source hsource target htarget hb

@[simp] theorem connectAll_nil (b : Builder) (targets : Frontier) :
    b.connectAll [] targets = b := rfl

theorem connectAll_cons
    (b : Builder) (source : Tail) (sources targets : Frontier) :
    b.connectAll (source :: sources) targets =
      (b.connectAll [source] targets).connectAll sources targets := rfl

theorem connectAll_singleton_cons
    (b : Builder) (source target : Tail) (targets : Frontier) :
    b.connectAll [source] (target :: targets) =
      (b.connect source target).connectAll [source] targets := rfl

@[simp] theorem connect_nodes (b : Builder) (source target : Tail) :
    (b.connect source target).nodes = b.nodes := by
  unfold connect
  split <;> rfl

@[simp] theorem connect_claimed (b : Builder) (source target : Tail) :
    (b.connect source target).claimed = b.claimed := by
  unfold connect
  split <;> rfl

@[simp] theorem connectAll_nodes
    (b : Builder) (sources targets : Frontier) :
    (b.connectAll sources targets).nodes = b.nodes :=
  connectAll_induction (P := fun b' => b'.nodes = b.nodes) rfl
    fun b' source _ target _ h => by rw [connect_nodes, h]

@[simp] theorem connectAll_claimed
    (b : Builder) (sources targets : Frontier) :
    (b.connectAll sources targets).claimed = b.claimed :=
  connectAll_induction (P := fun b' => b'.claimed = b.claimed) rfl
    fun b' source _ target _ h => by rw [connect_claimed, h]

/-- Edges are added in the same way to builders that differ in something else
than edges. -/
theorem connectAll_comm
    {f : Builder → Builder} (hends : ∀ b, (f b).ends = b.ends)
    (hadd : ∀ b source target,
      { f b with edges := (f b).edges ++ [(f b).freshEdge source target] } =
        f { b with edges := b.edges ++ [b.freshEdge source target] })
    (b : Builder) (sources targets : Frontier) :
    (f b).connectAll sources targets = f (b.connectAll sources targets) := by
  have hconnect : ∀ (b : Builder) (source target : Tail),
      (f b).connect source target = f (b.connect source target) := by
    intro b source target
    by_cases hwired : (source.nodeId, target.nodeId) ∈ b.ends
    · rw [connect_of_mem hwired, connect_of_mem ((hends b).symm ▸ hwired)]
    · rw [connect_of_notMem hwired,
        connect_of_notMem ((hends b).symm ▸ hwired), hadd]
  refine List.foldl_hom f fun b source => ?_
  exact List.foldl_hom f fun b target => hconnect b source target

theorem connectAll_push
    (b : Builder) (id : String) (kind : NodeKind) (payload : Payload)
    (sources targets : Frontier) :
    (b.push id kind payload).connectAll sources targets =
      (b.connectAll sources targets).push id kind payload :=
  connectAll_comm (f := (push · id kind payload)) (fun _ => rfl)
    (fun _ _ _ => rfl) b sources targets

theorem mem_ends_connectAll_singleton
    {b : Builder} {source : Tail} {targets : Frontier}
    {pair : String × String} :
    pair ∈ (b.connectAll [source] targets).ends ↔
      pair ∈ b.ends ∨ pair ∈ [source.nodeId] ×ˢ targets.nodeIds := by
  induction targets generalizing b with
  | nil => simp [connectAll]
  | cons target targets ih =>
      rw [connectAll_singleton_cons, ih, mem_ends_connect]
      simp [or_assoc, Prod.ext_iff]

theorem mem_ends_connectAll
    {b : Builder} {sources targets : Frontier} {pair : String × String} :
    pair ∈ (b.connectAll sources targets).ends ↔
      pair ∈ b.ends ∨ pair ∈ sources.nodeIds ×ˢ targets.nodeIds := by
  induction sources generalizing b with
  | nil => simp
  | cons source sources ih =>
      rw [connectAll_cons, ih, mem_ends_connectAll_singleton]
      simp [or_assoc]

/-! ## Growth -/

/-- A later stage of a builder: ids, nodes and edges are only added. -/
structure Grows (b b' : Builder) : Prop where
  claimed : b.claimed <:+ b'.claimed
  nodes : b.nodes <+: b'.nodes
  edges : b.edges <+: b'.edges

namespace Grows

theorem refl (b : Builder) : Grows b b :=
  ⟨List.suffix_refl _, List.prefix_refl _, List.prefix_refl _⟩

theorem trans {b b' b'' : Builder} (h : Grows b b') (h' : Grows b' b'') :
    Grows b b'' :=
  ⟨h.claimed.trans h'.claimed, h.nodes.trans h'.nodes,
    h.edges.trans h'.edges⟩

theorem nodeIds {b b' : Builder} (h : Grows b b') :
    b.nodeIds <+: b'.nodeIds :=
  h.nodes.map Node.id

theorem mem_claimed {b b' : Builder} (h : Grows b b') {id : String}
    (hid : id ∈ b.claimed) : id ∈ b'.claimed :=
  h.claimed.subset hid

end Grows

theorem grows_claim (b : Builder) (declared : String) (rank : Nat) :
    Grows b (b.claim declared rank).2 :=
  ⟨List.suffix_cons _ _, List.prefix_refl _, List.prefix_refl _⟩

theorem grows_push
    (b : Builder) (id : String) (kind : NodeKind) (payload : Payload) :
    Grows b (b.push id kind payload) :=
  ⟨List.suffix_refl _, List.prefix_append _ _, List.prefix_refl _⟩

theorem grows_connect (b : Builder) (source target : Tail) :
    Grows b (b.connect source target) := by
  by_cases hwired : (source.nodeId, target.nodeId) ∈ b.ends
  · rw [connect_of_mem hwired]
    exact Grows.refl b
  · rw [connect_of_notMem hwired]
    exact ⟨List.suffix_refl _, List.prefix_refl _, List.prefix_append _ _⟩

theorem grows_connectAll (b : Builder) (sources targets : Frontier) :
    Grows b (b.connectAll sources targets) :=
  connectAll_induction (Grows.refl b) fun b' source _ target _ h =>
    h.trans (grows_connect b' source target)

/-! ## Soundness -/

/-- What holds of a builder at every moment.  The ids in `pending` are handed
out, but the nodes for them are not drawn yet. -/
structure Sound (b : Builder) (pending : List String) : Prop where
  claimed_nodup : b.claimed.Nodup
  claimed_perm : b.claimed.Perm (b.nodeIds ++ pending)
  ends_claimed : ∀ edge ∈ b.edges,
    edge.source ∈ b.claimed ∧ edge.target ∈ b.claimed
  ends_nodup : b.ends.Nodup
  edgeIds_nodup : (b.edges.map Edge.id).Nodup
  edgeIds_variant : ∀ edge ∈ b.edges, IsVariant edge.baseId edge.id

theorem sound_empty (style : EdgeStyle) : (empty style).Sound [] where
  claimed_nodup := List.nodup_nil
  claimed_perm := List.Perm.refl _
  ends_claimed := by simp [empty]
  ends_nodup := List.nodup_nil
  edgeIds_nodup := List.nodup_nil
  edgeIds_variant := by simp [empty]

namespace Sound

variable {b : Builder} {pending : List String}

theorem perm (h : b.Sound pending) {pending' : List String}
    (hperm : pending.Perm pending') : b.Sound pending' :=
  { h with claimed_perm := h.claimed_perm.trans (hperm.append_left _) }

/-- A claimed id is pending until its node is drawn. -/
theorem claim (h : b.Sound pending) (declared : String) (rank : Nat) :
    (b.claim declared rank).2.Sound
      ((b.claim declared rank).1 :: pending) where
  claimed_nodup :=
    List.nodup_cons.mpr ⟨claim_notMem b declared rank, h.claimed_nodup⟩
  claimed_perm := (h.claimed_perm.cons _).trans List.perm_middle.symm
  ends_claimed edge hedge :=
    ⟨List.mem_cons_of_mem _ (h.ends_claimed edge hedge).1,
      List.mem_cons_of_mem _ (h.ends_claimed edge hedge).2⟩
  ends_nodup := h.ends_nodup
  edgeIds_nodup := h.edgeIds_nodup
  edgeIds_variant := h.edgeIds_variant

/-- Drawing the node of a pending id settles the id. -/
theorem push {id : String} (h : b.Sound (id :: pending))
    (kind : NodeKind) (payload : Payload) :
    (b.push id kind payload).Sound pending where
  claimed_nodup := h.claimed_nodup
  claimed_perm := by
    simpa [Builder.nodeIds, push_nodes] using h.claimed_perm
  ends_claimed := h.ends_claimed
  ends_nodup := h.ends_nodup
  edgeIds_nodup := h.edgeIds_nodup
  edgeIds_variant := h.edgeIds_variant

theorem connect (h : b.Sound pending) {source target : Tail}
    (hsource : source.nodeId ∈ b.claimed)
    (htarget : target.nodeId ∈ b.claimed) :
    (b.connect source target).Sound pending := by
  by_cases hwired : (source.nodeId, target.nodeId) ∈ b.ends
  · rw [connect_of_mem hwired]
    exact h
  · rw [connect_of_notMem hwired]
    refine ⟨h.claimed_nodup, h.claimed_perm, ?_, ?_, ?_, ?_⟩
    · intro edge hedge
      rcases List.mem_append.mp hedge with hold | hnew
      · exact h.ends_claimed edge hold
      · rw [List.mem_singleton.mp hnew]
        exact ⟨hsource, htarget⟩
    · have hends : b.ends ++ [(source.nodeId, target.nodeId)] =
          (b.edges ++ [b.freshEdge source target]).map Edge.ends := by
        simp [ends, freshEdge, Edge.ends]
      change ((b.edges ++ [b.freshEdge source target]).map Edge.ends).Nodup
      rw [← hends, List.nodup_append_comm, List.singleton_append]
      exact List.nodup_cons.mpr ⟨hwired, h.ends_nodup⟩
    · have hfresh : (b.freshEdge source target).id ∉ b.edges.map Edge.id :=
        firstFree_notMem (b.edges.map Edge.id) _
      rw [List.map_append, List.map_singleton, List.nodup_append_comm,
        List.singleton_append]
      exact List.nodup_cons.mpr ⟨hfresh, h.edgeIds_nodup⟩
    · intro edge hedge
      rcases List.mem_append.mp hedge with hold | hnew
      · exact h.edgeIds_variant edge hold
      · rw [List.mem_singleton.mp hnew]
        exact firstFree_isVariant (b.edges.map Edge.id) _

theorem connectAll (h : b.Sound pending) {sources targets : Frontier}
    (hsources : sources.nodeIds ⊆ b.claimed)
    (htargets : targets.nodeIds ⊆ b.claimed) :
    (b.connectAll sources targets).Sound pending := by
  have hboth : (b.connectAll sources targets).Sound pending ∧
      (b.connectAll sources targets).claimed = b.claimed := by
    refine connectAll_induction
      (P := fun b' => b'.Sound pending ∧ b'.claimed = b.claimed)
      ⟨h, rfl⟩ ?_
    rintro b' source hsource target htarget ⟨hb', hclaimed⟩
    refine ⟨hb'.connect ?_ ?_, by rw [connect_claimed, hclaimed]⟩
    · rw [hclaimed]
      exact hsources (List.mem_map_of_mem hsource)
    · rw [hclaimed]
      exact htargets (List.mem_map_of_mem htarget)
  exact hboth.1

theorem pending_claimed (h : b.Sound pending) : pending ⊆ b.claimed :=
  fun _ hid => h.claimed_perm.mem_iff.mpr (List.mem_append_right _ hid)

theorem nodeIds_nodup (h : b.Sound []) : b.nodeIds.Nodup := by
  have hperm : b.claimed.Perm b.nodeIds := by simpa using h.claimed_perm
  exact hperm.nodup_iff.mp h.claimed_nodup

end Sound

/-! ## The finished diagram -/

@[simp] theorem finish_nodeIds (b : Builder) :
    b.finish.nodeIds = b.nodeIds := by
  simp [finish, Diagram.nodeIds, nodeIds, withHandles]

@[simp] theorem finish_edges (b : Builder) : b.finish.edges = b.edges := rfl

@[simp] theorem finish_ends (b : Builder) : b.finish.ends = b.ends := rfl

/-- Once every claimed id has its node, the finished diagram is well formed. -/
theorem Sound.wellFormed_finish {b : Builder} (h : b.Sound []) :
    b.finish.WellFormed where
  nodeIds_nodup := by
    rw [finish_nodeIds]
    exact h.nodeIds_nodup
  ends_nodes := by
    have hperm : b.claimed.Perm b.nodeIds := by simpa using h.claimed_perm
    intro edge hedge
    rw [finish_nodeIds, ← hperm.mem_iff, ← hperm.mem_iff]
    exact h.ends_claimed edge hedge
  ends_nodup := h.ends_nodup
  edgeIds_nodup := h.edgeIds_nodup
  edgeIds_variant := h.edgeIds_variant
  topHandle := by
    intro node hnode
    obtain ⟨bare, -, rfl⟩ := List.mem_map.mp hnode
    simp [withHandles]
  bottomHandle := by
    intro node hnode
    obtain ⟨bare, -, rfl⟩ := List.mem_map.mp hnode
    simp [withHandles]

end Builder

end Flowchart
