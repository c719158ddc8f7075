import Flowchart.Proofs.Flow.Rejection
import Flowchart.Proofs.Flow.Wiring

/-!
# Appending to a flow

Ids are claimed ahead of time, but never on behalf of an entry that stands
behind the one that is drawn.  So what is drawn for a flow stays as it is when
more entries are put behind the flow: the longer diagram begins with the nodes
and the edges of the shorter one, and the nodes at its open ends are the only
ones that may lead on.

An else entry behind a conditional entry is the exception.  It is folded into
that entry and so changes an entry of the shorter flow.
-/

namespace Flowchart

open Outline Entry

/-! ## Folding -/

namespace Entry

/-- The entry behind the flow is not folded into the last entry of the flow. -/
def Separate (flow next : List Entry) : Prop :=
  ∀ last ∈ flow.getLast?, ∀ first ∈ next.head?, ¬continues last first

/- While the flow is folded, `previous` is the latest entry of the document that
was folded into `last`. -/
theorem foldElseAfter_append {next : List Entry} :
    (flow : List Entry) → (last previous : Entry) → last.type = previous.type →
      Separate (previous :: flow) next →
      foldElseAfter last (flow ++ next) =
        foldElseAfter last flow ++ foldElseFlow next
  | [], last, previous, htype, hseparate => by
      cases next with
      | nil => rfl
      | cons e next =>
          have hcontinues : ¬continues previous e :=
            hseparate previous rfl e rfl
          have hmerge : merge? last e.foldElse = none := by
            refine merge?_eq_none ?_
            rwa [continues, htype, foldElse_conditions]
          simp [foldElseAfter, foldElseFlow, hmerge]
  | e :: flow, last, previous, htype, hseparate => by
      have hrest : Separate (e :: flow) next := by
        intro final hfinal
        exact hseparate final (by simpa [List.getLast?_cons_cons] using hfinal)
      by_cases helse : continues last e.foldElse
      · obtain ⟨merged, hmerge, hmerged, -, -⟩ := merge?_eq_some helse
        have hflow := foldElseAfter_append flow merged e
          (hmerged.trans (foldElse_type e)) hrest
        simpa [foldElseAfter, hmerge] using hflow
      · have hmerge := merge?_eq_none helse
        have hflow := foldElseAfter_append flow e.foldElse e (foldElse_type e)
          hrest
        simpa [foldElseAfter, hmerge] using hflow

/-- Away from an else entry, folding commutes with appending. -/
theorem foldElseFlow_append
    {flow next : List Entry} (hseparate : Separate flow next) :
    foldElseFlow (flow ++ next) = foldElseFlow flow ++ foldElseFlow next := by
  cases flow with
  | nil => rfl
  | cons e flow =>
      exact foldElseAfter_append flow e.foldElse e (foldElse_type e) hseparate

theorem flowAligned_append {flow next : List Entry} :
    FlowAligned (flow ++ next) ↔ FlowAligned flow ∧ FlowAligned next := by
  induction flow with
  | nil => simp [FlowAligned]
  | cons e flow ih =>
      simp only [List.cons_append, FlowAligned, ih, and_assoc]

/-- No arc leads back into nodes that are numbered before those of the flow. -/
theorem le_of_flow_arc
    {ins : List Nat} {n : Nat} {flow : List Entry} {arc : Nat × Nat}
    (harc : arc ∈ ins ×ˢ flowHeads n flow ++ flowArcs n flow) : n ≤ arc.2 := by
  obtain ⟨hheads, -, harcs⟩ := flow_bounds n flow
  rcases List.mem_append.mp harc with hentered | hinner
  · exact (hheads arc.2 (List.mem_product.mp hentered).2).1
  · have hbounds := harcs arc hinner
    omega

end Entry

/-! ## Beginnings of diagrams -/

/-- The later node is the same node, except that an edge may leave it. -/
structure Node.Continues (node later : Node) : Prop where
  id : later.id = node.id
  kind : later.kind = node.kind
  payload : later.payload =
    { node.payload with
        withoutBottomHandle := later.payload.withoutBottomHandle }
  bottomHandle : later.payload.withoutBottomHandle = true →
    node.payload.withoutBottomHandle = true

/-- The diagram is the beginning of the whole one. -/
structure Diagram.Begins (diagram whole : Diagram) : Prop where
  nodes : ∃ first rest, whole.nodes = first ++ rest ∧
    List.Forall₂ Node.Continues diagram.nodes first
  edges : diagram.edges <+: whole.edges

namespace Builder

/-- A node that no later edge enters is continued. -/
theorem withHandles_continues
    {edges later : List Edge} {node : Node} (hedges : edges <+: later)
    (hentered : ∀ edge ∈ later, edge.target = node.id →
      ∃ edge' ∈ edges, edge'.target = node.id) :
    (withHandles edges node).Continues (withHandles later node) where
  id := rfl
  kind := rfl
  payload := by
    have htop : (later.any fun edge => edge.target == node.id) =
        edges.any fun edge => edge.target == node.id := by
      rw [Bool.eq_iff_iff]
      simp only [List.any_eq_true, beq_iff_eq]
      constructor
      · rintro ⟨edge, hedge, htarget⟩
        exact hentered edge hedge htarget
      · rintro ⟨edge, hedge, htarget⟩
        exact ⟨edge, hedges.subset hedge, htarget⟩
    simp [withHandles, htop]
  bottomHandle := by
    simp only [withHandles, Bool.not_eq_true', List.any_eq_false, beq_iff_eq]
    intro hfree edge hedge
    exact hfree edge (hedges.subset hedge)

/-- A builder that is continued without new edges into its nodes. -/
theorem begins_finish
    {b later : Builder} (hgrows : Grows b later)
    (hends : ∀ pair ∈ later.ends, pair.2 ∈ b.nodeIds → pair ∈ b.ends) :
    b.finish.Begins later.finish where
  nodes := by
    obtain ⟨rest, hrest⟩ := hgrows.nodes
    refine ⟨b.nodes.map (withHandles later.edges),
      rest.map (withHandles later.edges), ?_, ?_⟩
    · rw [finish, ← hrest, List.map_append]
    · rw [finish, List.forall₂_map_left_iff, List.forall₂_map_right_iff,
        List.forall₂_same]
      intro node hnode
      refine withHandles_continues hgrows.edges ?_
      intro edge hedge htarget
      have hpair : edge.ends ∈ b.ends := by
        refine hends edge.ends (List.mem_map_of_mem hedge) ?_
        rw [Edge.ends, htarget]
        exact List.mem_map_of_mem hnode
      obtain ⟨edge', hedge', hsame⟩ := List.mem_map.mp hpair
      exact ⟨edge', hedge', (congrArg Prod.snd hsame).trans htarget⟩
  edges := hgrows.edges

/-! ## Drawing -/

/-- What is put behind a flow is drawn behind the open ends of the flow. -/
theorem drawFlow_append
    (rank : Nat) (incoming : Frontier) (flow next : List Entry) (b : Builder) :
    drawFlow rank incoming none (flow ++ next) b =
      drawFlow (rank + flow.length) (drawFlow rank incoming none flow b).1 none
        next (drawFlow rank incoming none flow b).2 := by
  induction flow generalizing rank incoming b with
  | nil => rfl
  | cons e flow ih =>
      simp only [List.cons_append, drawFlow, ih, List.length_cons]
      rw [Nat.add_assoc, Nat.add_comm 1]

/-- A flow is drawn without new edges into the nodes that are already there.
The nodes are numbered through, and every arc of the flow leads to one of its
own nodes. -/
theorem drawFlow_enters_new
    {rank : Nat} {incoming : Frontier} {flow : List Entry} {b : Builder}
    {ins : List Nat} (haligned : FlowAligned flow)
    (hsound : (drawFlow rank incoming none flow b).2.Sound [])
    (hincoming : StandsAt (drawFlow rank incoming none flow b).2.nodeIds ins
      incoming) :
    ∀ pair ∈ (drawFlow rank incoming none flow b).2.ends,
      pair.2 ∈ b.nodeIds → pair ∈ b.ends := by
  have hgrows := (drawFlow_settles rank flow incoming none b trivial
    haligned).grows
  obtain ⟨-, htraces, -⟩ := drawFlow_traces rank flow b.nodes.length ins
    incoming none b rfl trivial haligned hincoming (List.prefix_refl _)
  rintro ⟨source, target⟩ hpair htarget
  rcases (htraces.ends _).mp hpair with hold | ⟨i, j, harc, -, hj⟩
  · exact hold
  · exfalso
    obtain ⟨k, hk, rfl⟩ := List.getElem_of_mem htarget
    have hk' := List.prefix_iff_getElem?.mp hgrows.nodeIds k hk
    obtain ⟨hlater, -⟩ := List.getElem?_eq_some_iff.mp hk'
    have heq : k = j :=
      (List.getElem?_inj hlater hsound.nodeIds_nodup).mp (hk'.trans hj.symm)
    have hlow : b.nodes.length ≤ j := le_of_flow_arc harc
    rw [nodeIds, List.length_map] at hk
    omega

end Builder

namespace Diagram

theorem ofFoldedFlow_begins
    {flow next : List Entry} (haligned : FlowAligned (flow ++ next))
    (style : EdgeStyle) :
    (ofFoldedFlow style flow).Begins (ofFoldedFlow style (flow ++ next)) := by
  obtain ⟨hflow, hnext⟩ := flowAligned_append.mp haligned
  have hsound : ((Builder.empty style).drawFlow 0 [] none
      (flow ++ next)).2.Sound [] := sound_drawFlow haligned
  unfold ofFoldedFlow
  rw [Builder.drawFlow_append] at hsound ⊢
  have hgrows := (Builder.drawFlow_settles (0 + flow.length) next
    ((Builder.empty style).drawFlow 0 [] none flow).1 none
    ((Builder.empty style).drawFlow 0 [] none flow).2 trivial hnext).grows
  obtain ⟨-, -, htips⟩ := Builder.drawFlow_traces 0 flow 0 [] [] none
    (.empty style) rfl trivial hflow standsAt_nil hgrows.nodeIds
  exact Builder.begins_finish hgrows
    (Builder.drawFlow_enters_new hnext hsound htips)

end Diagram

/-- Entries that are put behind a flow, other than an else entry behind a
conditional one, do not change what is drawn for the flow.  If the longer flow
has a diagram, the shorter one has the beginning of that diagram. -/
theorem ofFlow_append_begins
    {style : EdgeStyle} {flow next : Flow} {whole : Diagram}
    (hseparate : Separate flow next)
    (h : Diagram.ofFlow style (flow ++ next) = .ok whole) :
    ∃ diagram, Diagram.ofFlow style flow = .ok diagram ∧
      diagram.Begins whole := by
  obtain ⟨haligned, rfl⟩ := Diagram.ofFlow_eq_ok_iff.mp h
  have hfold : Flow.foldElse (flow ++ next) = flow.foldElse ++ next.foldElse :=
    foldElseFlow_append hseparate
  rw [hfold] at haligned ⊢
  have hflow := (flowAligned_append.mp haligned).1
  exact ⟨_, Diagram.ofFlow_eq_ok_iff.mpr ⟨hflow, rfl⟩,
    Diagram.ofFoldedFlow_begins haligned style⟩

/-- A flow that ends with a conditional entry, one of whose branches has no
entries. -/
def openedFlow : Flow :=
  [.step (.plain "go" none),
    .conditional [[.step (.plain "go" none)], []]
      [.raw .ifKind "ready", .raw .elseKind ""]]

/-- A conditional entry that is no else to the flow before it, with an else
entry of its own. -/
def followingFlow : Flow :=
  [.conditional [[.step (.plain "go" none)]] [.raw .ifKind "late"],
    .conditional [[.loop (.plain "go" none) ⟨"go", "sent"⟩ .untilKind]]
      [.raw .elseKind ""]]

theorem openedFlow_followingFlow_begins :
    Separate openedFlow followingFlow ∧
    ∃ diagram whole,
      Diagram.ofFlow .standard openedFlow = .ok diagram ∧
      Diagram.ofFlow .standard (openedFlow ++ followingFlow) = .ok whole ∧
      diagram.Begins whole ∧
      whole.nodeIds =
        ["go", "go-1-when-0", "go-1", "conditional-1-when-1", "go-2-when-0",
          "go-2", "go-2-when-1", "go-2-2", "go-2-3"] := by
  have hseparate : Separate openedFlow followingFlow := by
    simp [Separate, openedFlow, followingFlow, continues, Entry.conditions,
      opensWithElse, Condition.raw, Condition.bare]
  have hwhole := Diagram.ofFlow_eq_ok
    (by decide : flowMismatch? 0 false
      (Flow.foldElse (openedFlow ++ followingFlow)) = none) .standard
  obtain ⟨diagram, hdiagram, hbegins⟩ := ofFlow_append_begins hseparate hwhole
  exact ⟨hseparate, diagram, _, hdiagram, hwhole, hbegins, by decide +kernel⟩

end Flowchart
