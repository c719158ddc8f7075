import Flowchart.Proofs.Outline

/-!
# Diagrams that match

Two diagrams match if their nodes correspond one to one, so that corresponding
nodes have the same kind and the same label and are joined alike.  Ids, ranks
and the order of nodes and edges do not matter.
-/

namespace Flowchart

/-- The edge leads from the one node to the other. -/
def Edge.Leads (edge : Edge) (source target : Node) : Prop :=
  edge.source = source.id ∧ edge.target = target.id

/-- The kind and the label of a node. -/
def Node.face (node : Node) : NodeKind × String :=
  (node.kind, node.payload.label)

/-- The kind and the label that a card asks for. -/
def Card.face (card : Card) : NodeKind × String :=
  (card.kind, card.label)

namespace Diagram

/-- An edge leads from the one node to the other. -/
def Linked (diagram : Diagram) (i j : Fin diagram.nodes.length) : Prop :=
  ∃ edge ∈ diagram.edges, edge.Leads diagram.nodes[i] diagram.nodes[j]

/-- The nodes that are assigned to each other look alike, and they are joined
alike, except that nothing is said about pairs of nodes that are exempt. -/
structure Corresponds (diagram other : Diagram)
    (exempt : Fin diagram.nodes.length → Fin diagram.nodes.length → Prop)
    (e : Fin diagram.nodes.length ≃ Fin other.nodes.length) : Prop where
  kind : ∀ i, other.nodes[e i].kind = diagram.nodes[i].kind
  label : ∀ i, other.nodes[e i].payload.label = diagram.nodes[i].payload.label
  linked : ∀ i j, ¬exempt i j →
    (other.Linked (e i) (e j) ↔ diagram.Linked i j)

/-- Some assignment makes the diagrams correspond. -/
def Matches (diagram other : Diagram)
    (exempt : Fin diagram.nodes.length → Fin diagram.nodes.length → Prop) :
    Prop :=
  ∃ e, Corresponds diagram other exempt e

/-- The diagrams match, and no nodes are exempt. -/
def Isomorphic (diagram other : Diagram) : Prop :=
  diagram.Matches other fun _ _ => False

theorem Matches.mono
    {diagram other : Diagram}
    {exempt exempt' : Fin diagram.nodes.length →
      Fin diagram.nodes.length → Prop}
    (h : diagram.Matches other exempt)
    (hexempt : ∀ i j, exempt i j → exempt' i j) :
    diagram.Matches other exempt' := by
  obtain ⟨e, h⟩ := h
  exact ⟨e, h.kind, h.label,
    fun i j hnot => h.linked i j fun hex => hnot (hexempt i j hex)⟩

/-- Nodes with the same number may be assigned to each other. -/
theorem isomorphic_of_map_face_eq
    {diagram other : Diagram}
    (hface : other.nodes.map Node.face = diagram.nodes.map Node.face)
    (hlinked : ∀ (i j : Fin diagram.nodes.length)
      (i' j' : Fin other.nodes.length), (i' : Nat) = i → (j' : Nat) = j →
      (other.Linked i' j' ↔ diagram.Linked i j)) :
    diagram.Isomorphic other := by
  have hlength : diagram.nodes.length = other.nodes.length := by
    simpa using (congrArg List.length hface).symm
  obtain ⟨e, he⟩ : ∃ e : Fin diagram.nodes.length ≃ Fin other.nodes.length,
      ∀ i, (e i : Nat) = i :=
    ⟨finCongr hlength, fun i => rfl⟩
  have hnode : ∀ i, other.nodes[e i].face = diagram.nodes[i].face := by
    intro i
    have hi : (other.nodes.map Node.face)[(e i : Nat)]? =
        some diagram.nodes[i].face := by
      rw [hface, he]
      simp
    simpa using hi
  exact ⟨e, fun i => (Prod.mk.inj (hnode i)).1,
    fun i => (Prod.mk.inj (hnode i)).2,
    fun i j _ => hlinked i j (e i) (e j) (he i) (he j)⟩

namespace Realizes

variable {diagram : Diagram} {outline : Outline}

theorem nodes_length (h : diagram.Realizes outline) :
    diagram.nodes.length = outline.cards.length :=
  h.shows.length_eq

theorem map_face (h : diagram.Realizes outline) :
    diagram.nodes.map Node.face = outline.cards.map Card.face := by
  rw [← List.forall₂_eq_eq_eq, List.forall₂_map_left_iff,
    List.forall₂_map_right_iff]
  refine h.shows.imp ?_
  intro node card hshows
  exact Prod.ext hshows.kind hshows.label

/-- The nodes with an arc between their numbers are joined. -/
theorem linked_iff
    (h : diagram.Realizes outline) (i j : Fin diagram.nodes.length) :
    diagram.Linked i j ↔ ((i : Nat), (j : Nat)) ∈ outline.arcs := by
  have hid : ∀ k : Fin diagram.nodes.length,
      diagram.nodeIds[(k : Nat)]? = some diagram.nodes[k].id := by
    intro k
    simp [nodeIds]
  have hends : diagram.Linked i j ↔
      (diagram.nodes[i].id, diagram.nodes[j].id) ∈ diagram.ends := by
    simp [Linked, Edge.Leads, ends, Edge.ends]
  rw [hends, h.mem_ends_iff]
  constructor
  · rintro ⟨i', j', harc, hi, hj⟩
    rw [h.number_unique hi (hid i), h.number_unique hj (hid j)] at harc
    exact harc
  · exact fun harc => ⟨i, j, harc, hid i, hid j⟩

end Realizes

end Diagram

end Flowchart
