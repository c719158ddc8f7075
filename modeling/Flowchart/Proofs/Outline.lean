import Flowchart.Proofs.Settling

/-!
# Outlines

An outline says what a diagram looks like without giving its nodes their ids:
it lists what every node shows and which nodes are joined, by number.  A diagram
realizes an outline when its nodes show what the outline lists, in the same
order, and its edges are exactly the arcs of the outline.

The ids of a diagram are settled only while it is drawn.  So a drawing is
followed against the list `names` of all ids that the finished diagram will
have, of which every builder on the way holds the first ones.
-/

namespace Flowchart

open Names

/-! ## Cards and outlines -/

/-- What a document fixes of a node: what is drawn in it, and the id and the
rank that its id is made from. -/
structure Card where
  kind : NodeKind
  label : String
  description : Option String
  stepGraph : Option Flow
  conditions : List Condition
  baseId : String
  rank : Nat

/-- A node is drawn as a card says. -/
structure Node.Shows (node : Node) (card : Card) : Prop where
  kind : node.kind = card.kind
  label : node.payload.label = card.label
  description : node.payload.description = card.description
  stepGraph : node.payload.stepGraph = card.stepGraph
  conditions : node.payload.conditions = card.conditions
  id : IsRenaming card.baseId card.rank node.id

/-- The cards of the nodes in their order, and the pairs of numbers of nodes
that are joined. -/
structure Outline where
  cards : List Card
  arcs : List (Nat × Nat)

/-- The nodes of the diagram show the cards of the outline one by one, no two
nodes have the same id, and the nodes that are joined, each pair of them once,
are those with an arc between their numbers.  Every arc leads to a later
node. -/
structure Diagram.Realizes (diagram : Diagram) (outline : Outline) : Prop where
  shows : List.Forall₂ Node.Shows diagram.nodes outline.cards
  nodeIds_nodup : diagram.nodeIds.Nodup
  ends_nodup : diagram.ends.Nodup
  arcs_lt : ∀ arc ∈ outline.arcs,
    arc.1 < arc.2 ∧ arc.2 < diagram.nodes.length
  mem_ends_iff : ∀ source target, (source, target) ∈ diagram.ends ↔
    ∃ i j, (i, j) ∈ outline.arcs ∧
      diagram.nodeIds[i]? = some source ∧ diagram.nodeIds[j]? = some target

namespace Diagram.Realizes

variable {diagram : Diagram} {outline : Outline}

/-- Every number of a card is the number of a node. -/
theorem exists_nodeId
    (h : diagram.Realizes outline) {i : Nat} (hi : i < outline.cards.length) :
    ∃ id, diagram.nodeIds[i]? = some id := by
  have hlength : i < diagram.nodeIds.length := by
    rw [nodeIds, List.length_map, h.shows.length_eq]
    exact hi
  exact ⟨_, List.getElem?_eq_getElem hlength⟩

theorem number_unique
    (h : diagram.Realizes outline) {i j : Nat} {id : String}
    (hi : diagram.nodeIds[i]? = some id) (hj : diagram.nodeIds[j]? = some id) :
    i = j := by
  obtain ⟨hlt, -⟩ := List.getElem?_eq_some_iff.mp hi
  exact (List.getElem?_inj hlt h.nodeIds_nodup).mp (hi.trans hj.symm)

theorem mem_edgesInto_iff
    (h : diagram.Realizes outline) {j : Nat} {target : String}
    (hj : diagram.nodeIds[j]? = some target) {pair : String × String} :
    pair ∈ (diagram.edgesInto target).map Edge.ends ↔
      pair.2 = target ∧ ∃ i, (i, j) ∈ outline.arcs ∧
        diagram.nodeIds[i]? = some pair.1 := by
  have hends : pair ∈ (diagram.edgesInto target).map Edge.ends ↔
      pair.2 = target ∧ (pair.1, pair.2) ∈ diagram.ends := by
    simp only [edgesInto, ends, List.mem_map, List.mem_filter, beq_iff_eq]
    constructor
    · rintro ⟨edge, ⟨hedge, htarget⟩, rfl⟩
      exact ⟨htarget, edge, hedge, rfl⟩
    · rintro ⟨htarget, edge, hedge, hpair⟩
      obtain rfl : edge.ends = pair := hpair
      exact ⟨edge, ⟨hedge, htarget⟩, rfl⟩
  rw [hends, h.mem_ends_iff]
  constructor
  · rintro ⟨htarget, i, j', harc, hi, hj'⟩
    rw [htarget] at hj'
    rw [h.number_unique hj' hj] at harc
    exact ⟨htarget, i, harc, hi⟩
  · rintro ⟨htarget, i, harc, hi⟩
    exact ⟨htarget, i, j, harc, hi, htarget ▸ hj⟩

/-- A node with a single arc into it has a single edge into it. -/
theorem edgesInto_eq_singleton
    (h : diagram.Realizes outline) {i j : Nat} {source target : String}
    (hi : diagram.nodeIds[i]? = some source)
    (hj : diagram.nodeIds[j]? = some target)
    (harcs : ∀ k, (k, j) ∈ outline.arcs ↔ k = i) :
    (diagram.edgesInto target).map Edge.ends = [(source, target)] := by
  have hnodup : ((diagram.edgesInto target).map Edge.ends).Nodup :=
    h.ends_nodup.sublist (List.filter_sublist.map Edge.ends)
  refine List.perm_singleton.mp
    ((List.perm_ext_iff_of_nodup hnodup (List.nodup_singleton _)).mpr ?_)
  rintro ⟨source', target'⟩
  rw [h.mem_edgesInto_iff hj, List.mem_singleton, Prod.mk.injEq]
  constructor
  · rintro ⟨htarget, k, harc, hk⟩
    rw [(harcs k).mp harc, hi, Option.some.injEq] at hk
    exact ⟨hk.symm, htarget⟩
  · rintro ⟨rfl, rfl⟩
    exact ⟨rfl, i, (harcs i).mpr rfl, hi⟩

/-- A node that no arc leads to has no edge into it. -/
theorem edgesInto_eq_nil
    (h : diagram.Realizes outline) {j : Nat} {target : String}
    (hj : diagram.nodeIds[j]? = some target)
    (harcs : ∀ k, (k, j) ∉ outline.arcs) :
    diagram.edgesInto target = [] := by
  rw [← List.map_eq_nil_iff (f := Edge.ends), List.eq_nil_iff_forall_not_mem]
  intro pair hpair
  obtain ⟨-, k, harc, -⟩ := (h.mem_edgesInto_iff hj).mp hpair
  exact harcs k harc

/-- A node that no arc leads away from has no edge out of it. -/
theorem edgesFrom_eq_nil
    (h : diagram.Realizes outline) {i : Nat} {source : String}
    (hi : diagram.nodeIds[i]? = some source)
    (harcs : ∀ k, (i, k) ∉ outline.arcs) :
    diagram.edgesFrom source = [] := by
  rw [List.eq_nil_iff_forall_not_mem]
  intro edge hedge
  rw [edgesFrom, List.mem_filter, beq_iff_eq] at hedge
  have hends : (source, edge.target) ∈ diagram.ends := by
    rw [← hedge.2]
    exact List.mem_map_of_mem hedge.1
  obtain ⟨i', j, harc, hi', -⟩ := (h.mem_ends_iff _ _).mp hends
  rw [h.number_unique hi' hi] at harc
  exact harcs j harc

end Diagram.Realizes

namespace Outline

/-! ## Numbers and names -/

/-- The pair of names belongs to an arc. -/
def Joined (names : List String) (arcs : List (Nat × Nat))
    (pair : String × String) : Prop :=
  ∃ i j, (i, j) ∈ arcs ∧ names[i]? = some pair.1 ∧ names[j]? = some pair.2

/-- The open ends stand at the nodes with the given numbers. -/
def StandsAt (names : List String) (numbers : List Nat)
    (frontier : Frontier) : Prop :=
  frontier.nodeIds.map some = numbers.map fun i => names[i]?

variable {names : List String}

@[simp] theorem not_joined_nil {pair : String × String} :
    ¬Joined names [] pair := by
  simp [Joined]

theorem joined_append {arcs others : List (Nat × Nat)}
    {pair : String × String} :
    Joined names (arcs ++ others) pair ↔
      Joined names arcs pair ∨ Joined names others pair := by
  simp only [Joined, List.mem_append, or_and_right, exists_or]

@[simp] theorem standsAt_nil : StandsAt names [] [] := rfl

theorem StandsAt.append
    {numbers others : List Nat} {frontier tails : Frontier}
    (h : StandsAt names numbers frontier) (h' : StandsAt names others tails) :
    StandsAt names (numbers ++ others) (frontier ++ tails) := by
  unfold StandsAt at *
  rw [Frontier.nodeIds_append, List.map_append, List.map_append, h, h']

theorem standsAt_singleton_iff {n : Nat} {tail : Tail} :
    StandsAt names [n] [tail] ↔ names[n]? = some tail.nodeId := by
  simp [StandsAt, eq_comm]

theorem StandsAt.mem_nodeIds_iff
    {numbers : List Nat} {frontier : Frontier}
    (h : StandsAt names numbers frontier) {id : String} :
    id ∈ frontier.nodeIds ↔ ∃ i ∈ numbers, names[i]? = some id := by
  rw [← List.mem_map, ← h]
  simp

/-- The arcs between two lists of numbers join all open ends to all entry
points. -/
theorem joined_product_iff
    {numbers others : List Nat} {sources targets : Frontier}
    (hsources : StandsAt names numbers sources)
    (htargets : StandsAt names others targets) {pair : String × String} :
    Joined names (numbers ×ˢ others) pair ↔
      pair ∈ sources.nodeIds ×ˢ targets.nodeIds := by
  obtain ⟨source, target⟩ := pair
  simp only [Joined, List.mem_product, hsources.mem_nodeIds_iff,
    htargets.mem_nodeIds_iff]
  constructor
  · rintro ⟨i, j, ⟨hi, hj⟩, hsource, htarget⟩
    exact ⟨⟨i, hi, hsource⟩, ⟨j, hj, htarget⟩⟩
  · rintro ⟨⟨i, hi, hsource⟩, ⟨j, hj, htarget⟩⟩
    exact ⟨i, j, ⟨hi, hj⟩, hsource, htarget⟩

/-! ## Bounds -/

/-- The numbers are not below the first bound and below the second one. -/
def Within (low high : Nat) (numbers : List Nat) : Prop :=
  ∀ i ∈ numbers, low ≤ i ∧ i < high

/-- The arcs lead from numbers to greater numbers, both between the bounds. -/
def Ascending (low high : Nat) (arcs : List (Nat × Nat)) : Prop :=
  ∀ arc ∈ arcs, low ≤ arc.1 ∧ arc.1 < arc.2 ∧ arc.2 < high

theorem within_nil (low high : Nat) : Within low high [] := by
  simp [Within]

theorem Within.append
    {low high : Nat} {numbers others : List Nat}
    (h : Within low high numbers) (h' : Within low high others) :
    Within low high (numbers ++ others) := by
  intro i hi
  exact (List.mem_append.mp hi).elim (h i) (h' i)

theorem Within.widen
    {low high low' high' : Nat} {numbers : List Nat}
    (h : Within low high numbers) (hlow : low' ≤ low) (hhigh : high ≤ high') :
    Within low' high' numbers := by
  intro i hi
  have hbounds := h i hi
  omega

theorem ascending_nil (low high : Nat) : Ascending low high [] := by
  simp [Ascending]

theorem Ascending.append
    {low high : Nat} {arcs others : List (Nat × Nat)}
    (h : Ascending low high arcs) (h' : Ascending low high others) :
    Ascending low high (arcs ++ others) := by
  intro arc harc
  exact (List.mem_append.mp harc).elim (h arc) (h' arc)

theorem Ascending.widen
    {low high low' high' : Nat} {arcs : List (Nat × Nat)}
    (h : Ascending low high arcs) (hlow : low' ≤ low) (hhigh : high ≤ high') :
    Ascending low' high' arcs := by
  intro arc harc
  have hbounds := h arc harc
  omega

/-- Arcs from lower numbers to higher ones. -/
theorem ascending_product
    {low mid high : Nat} {numbers others : List Nat}
    (h : Within low mid numbers) (h' : Within mid high others) :
    Ascending low high (numbers ×ˢ others) := by
  rintro ⟨i, j⟩ harc
  rw [List.mem_product] at harc
  have hi := h i harc.1
  have hj := h' j harc.2
  simp only
  omega

theorem mem_product_append
    {numbers others tails : List Nat} {arc : Nat × Nat} :
    arc ∈ numbers ×ˢ (others ++ tails) ↔
      arc ∈ numbers ×ˢ others ∨ arc ∈ numbers ×ˢ tails := by
  obtain ⟨i, j⟩ := arc
  simp only [List.mem_product, List.mem_append, and_or_left]

/-! ## Following a drawing -/

/-- Between the two builders, nodes with the given cards are drawn and exactly
the pairs with the given arcs are joined. -/
structure Traces (names : List String) (b b' : Builder) (cards : List Card)
    (arcs : List (Nat × Nat)) : Prop where
  nodes : ∃ new, b'.nodes = b.nodes ++ new ∧
    List.Forall₂ Node.Shows new cards
  ends : ∀ pair, pair ∈ b'.ends ↔ pair ∈ b.ends ∨ Joined names arcs pair

namespace Traces

theorem refl (names : List String) (b : Builder) : Traces names b b [] [] :=
  ⟨⟨[], by simp, .nil⟩, by simp⟩

theorem trans
    {b b' b'' : Builder} {cards others : List Card}
    {arcs later : List (Nat × Nat)}
    (h : Traces names b b' cards arcs)
    (h' : Traces names b' b'' others later) :
    Traces names b b'' (cards ++ others) (arcs ++ later) where
  nodes := by
    obtain ⟨new, hnew, hshows⟩ := h.nodes
    obtain ⟨new', hnew', hshows'⟩ := h'.nodes
    refine ⟨new ++ new', ?_, List.rel_append hshows hshows'⟩
    rw [hnew', hnew, List.append_assoc]
  ends pair := by
    rw [h'.ends, h.ends, joined_append, or_assoc]

/-- It does not matter in which order arcs are listed, and how often. -/
theorem rearrange
    {b b' : Builder} {cards : List Card} {arcs others : List (Nat × Nat)}
    (h : Traces names b b' cards arcs)
    (harcs : ∀ arc, arc ∈ arcs ↔ arc ∈ others) :
    Traces names b b' cards others where
  nodes := h.nodes
  ends pair := by
    rw [h.ends]
    simp only [Joined, harcs]

theorem nodes_length
    {b b' : Builder} {cards : List Card} {arcs : List (Nat × Nat)}
    (h : Traces names b b' cards arcs) :
    b'.nodes.length = b.nodes.length + cards.length := by
  obtain ⟨new, hnew, hshows⟩ := h.nodes
  rw [hnew, List.length_append, hshows.length_eq]

theorem of_eq
    {b b' : Builder} (hnodes : b'.nodes = b.nodes) (hends : b'.ends = b.ends) :
    Traces names b b' [] [] :=
  ⟨⟨[], by simp [hnodes], .nil⟩, by simp [hends]⟩

theorem connectAll
    (b : Builder) {numbers others : List Nat} {sources targets : Frontier}
    (hsources : StandsAt names numbers sources)
    (htargets : StandsAt names others targets) :
    Traces names b (b.connectAll sources targets) [] (numbers ×ˢ others) where
  nodes := ⟨[], by simp, .nil⟩
  ends pair := by
    rw [Builder.mem_ends_connectAll, joined_product_iff hsources htargets]

end Traces

/-- The next node that is drawn gets the next number. -/
theorem getElem?_of_push
    {b : Builder} {id : String} {kind : NodeKind} {payload : Payload} {n : Nat}
    (hn : b.nodes.length = n)
    (hnames : (b.push id kind payload).nodeIds <+: names) :
    names[n]? = some id := by
  obtain ⟨later, rfl⟩ := hnames
  simp [← hn, Builder.nodeIds, Builder.push_nodes]

/-- A node is drawn and joined to the open ends. -/
theorem push_traces
    (b : Builder) (point : Tail) (kind : NodeKind) (payload : Payload)
    {numbers : List Nat} {incoming : Frontier} {card : Card} {n : Nat}
    (hn : b.nodes.length = n)
    (hincoming : StandsAt names numbers incoming)
    (hshows : Node.Shows ⟨point.nodeId, kind, payload⟩ card)
    (hnames : ((b.push point.nodeId kind payload).connectAll incoming
      [point]).nodeIds <+: names) :
    StandsAt names [n] [point] ∧
      Traces names b
        ((b.push point.nodeId kind payload).connectAll incoming [point])
        [card] (numbers ×ˢ [n]) := by
  have hpush : Traces names b (b.push point.nodeId kind payload) [card] [] :=
    ⟨⟨_, Builder.push_nodes b point.nodeId kind payload, .cons hshows .nil⟩,
      by simp [Builder.ends]⟩
  have hpoint : StandsAt names [n] [point] := by
    have hpushed : (b.push point.nodeId kind payload).nodeIds <+: names := by
      simpa [Builder.nodeIds] using hnames
    exact standsAt_singleton_iff.mpr (getElem?_of_push hn hpushed)
  exact ⟨hpoint, hpush.trans (.connectAll _ hincoming hpoint)⟩

/-- An id is claimed, and its node is drawn at once. -/
theorem claim_push_traces
    (b : Builder) (declared : String) (rank : Nat) (entered : String)
    (kind : NodeKind) (payload : Payload) {numbers : List Nat}
    {incoming : Frontier} {card : Card} {n : Nat}
    (hn : b.nodes.length = n)
    (hincoming : StandsAt names numbers incoming)
    (hshows : ∀ id, IsRenaming declared rank id →
      Node.Shows ⟨id, kind, payload⟩ card)
    (hnames : (((b.claim declared rank).2.push (b.claim declared rank).1 kind
      payload).connectAll incoming
        [⟨(b.claim declared rank).1, entered⟩]).nodeIds <+: names) :
    StandsAt names [n] [⟨(b.claim declared rank).1, entered⟩] ∧
      Traces names b
        (((b.claim declared rank).2.push (b.claim declared rank).1 kind
          payload).connectAll incoming
            [⟨(b.claim declared rank).1, entered⟩])
        [card] (numbers ×ˢ [n]) := by
  have hclaim : Traces names b (b.claim declared rank).2 [] [] :=
    .of_eq rfl rfl
  have hpush := push_traces (b.claim declared rank).2
    ⟨(b.claim declared rank).1, entered⟩ kind payload hn hincoming
    (hshows _ (Builder.claim_isRenaming b declared rank)) hnames
  exact ⟨hpush.1, hclaim.trans hpush.2⟩

/-! ## Finished diagrams -/

/-- A card says nothing about handles. -/
theorem shows_withHandles_iff
    {edges : List Edge} {node : Node} {card : Card} :
    Node.Shows (Builder.withHandles edges node) card ↔
      Node.Shows node card :=
  ⟨fun h => ⟨h.kind, h.label, h.description, h.stepGraph, h.conditions, h.id⟩,
    fun h => ⟨h.kind, h.label, h.description, h.stepGraph, h.conditions, h.id⟩⟩

/-- A drawing that is followed from its beginning to its end. -/
theorem realizes_finish
    {style : EdgeStyle} {b : Builder} {outline : Outline}
    (hsound : b.Sound [])
    (htraces : Traces b.nodeIds (.empty style) b outline.cards outline.arcs)
    (harcs : ∀ arc ∈ outline.arcs,
      arc.1 < arc.2 ∧ arc.2 < outline.cards.length) :
    b.finish.Realizes outline := by
  obtain ⟨new, hnew, hshows⟩ := htraces.nodes
  have hnodes : b.nodes = new := by simpa [Builder.empty] using hnew
  rw [← hnodes] at hshows
  refine ⟨?_, ?_, hsound.ends_nodup, ?_, ?_⟩
  · simpa [Builder.finish, List.forall₂_map_left_iff, shows_withHandles_iff]
      using hshows
  · rw [Builder.finish_nodeIds]
    exact hsound.nodeIds_nodup
  · intro arc harc
    have hlength : b.finish.nodes.length = outline.cards.length := by
      simpa [Builder.finish] using hshows.length_eq
    rw [hlength]
    exact harcs arc harc
  · intro source target
    rw [Builder.finish_nodeIds, Builder.finish_ends, htraces.ends]
    simp [Builder.ends, Builder.empty, Joined]

end Outline

end Flowchart
