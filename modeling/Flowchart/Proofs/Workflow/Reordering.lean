import Flowchart.Proofs.Matching
import Flowchart.Proofs.Workflow.Arrangement
import Flowchart.Proofs.Workflow.Wiring

/-!
# Subscriber graphs in another order

Which subscriber graphs are drawn does not depend on the order in which they are
gone through, and neither does what the nodes show and how they are joined
within a graph.  But a subscriber graph hangs off the most recent occurrence of
a step, and if several graphs draw this step, it depends on the order which of
them was the last.
-/

namespace Flowchart

open Progress (keyParts)
open KeyedGraph

namespace KeyedGraph

/-- The key of the graph that is the last one with the step before the
subscriber graph with the key. -/
def hostKey? (graphs : List KeyedGraph) (key stepId : String) :
    Option (Option String) :=
  (host? (before graphs (some key)) stepId).map Prod.fst

/-- A subscriber graph may hang with the second place off the first one: the
first is the exit of a step that the key names, the second starts a head of the
graph.  But the step has one host in the one order and another host in the
other. -/
def Drifts (graphs graphs' : List KeyedGraph) (s t : Place) : Prop :=
  ∃ key graph part, (some key, graph) ∈ graphs ∧ part ∈ keyParts key ∧
    hostKey? graphs key part ≠ hostKey? graphs' key part ∧
    (∃ g ∈ graphs, ∃ o ∈ g.2.occurrences,
      o.step.id = part ∧ s = (g.1, o.exit)) ∧
    ∃ head ∈ graph.occurrences, head.rank = 0 ∧ t = (some key, head.first)

variable {graphs graphs' : List KeyedGraph} {s t : Place}

theorem Drifts.symm
    (hperm : graphs.Perm graphs') (h : Drifts graphs' graphs s t) :
    Drifts graphs graphs' s t := by
  obtain ⟨key, graph, part, hmem, hpart, hne, ⟨g, hg, hexit⟩, hhead⟩ := h
  exact ⟨key, graph, part, hperm.mem_iff.mpr hmem, hpart, hne.symm,
    ⟨g, hperm.mem_iff.mpr hg, hexit⟩, hhead⟩

/-- Places that are joined stay joined in another order, unless they drift. -/
theorem Joins.reorder
    (h : Joins graphs s t) (hperm : graphs.Perm graphs')
    (hkeys : (graphs.map Prod.fst).Nodup)
    (hdrifts : ¬Drifts graphs graphs' s t) : Joins graphs' s t := by
  cases h with
  | inside hg harc => exact .inside (hperm.mem_iff.mp hg) harc
  | @hanging g s head hg hangs hhead hrank =>
      obtain ⟨key?, graph⟩ := g
      obtain ⟨part, hpart, host, hhost, o, ho, rfl⟩ := hangs
      cases key? with
      | none => cases hpart
      | some key =>
          have hhostMem : host ∈ graphs :=
            before_subset graphs (some key) (mem_of_host? hhost)
          obtain ⟨ho', hid⟩ := Occurrences.step_id_of_latest?_eq_some ho
          have hsame :
              hostKey? graphs key part = hostKey? graphs' key part := by
            by_contra hne
            exact hdrifts ⟨key, graph, part, hg, hpart, hne,
              ⟨host, hhostMem, o, ho', hid, rfl⟩, head, hhead, hrank, rfl⟩
          rw [hostKey?, Option.mem_def.mp hhost, Option.map_some, eq_comm,
            hostKey?, Option.map_eq_some_iff] at hsame
          obtain ⟨host', hhost', hkey⟩ := hsame
          have hhostMem' : host' ∈ graphs := hperm.mem_iff.mpr
            (before_subset graphs' (some key) (mem_of_host? hhost'))
          obtain rfl : host' = host :=
            List.inj_on_of_nodup_map hkeys hhostMem' hhostMem hkey
          exact .hanging (hperm.mem_iff.mp hg)
            ⟨part, hpart, host', hhost', o, ho, rfl⟩ hhead hrank

theorem joins_iff_of_not_drifts
    (hperm : graphs.Perm graphs') (hkeys : (graphs.map Prod.fst).Nodup)
    (hdrifts : ¬Drifts graphs graphs' s t) :
    Joins graphs' s t ↔ Joins graphs s t := by
  have hkeys' : (graphs'.map Prod.fst).Nodup :=
    (hperm.map Prod.fst).nodup_iff.mp hkeys
  constructor
  · intro h
    exact h.reorder hperm.symm hkeys' fun hdrifts' =>
      hdrifts (hdrifts'.symm hperm)
  · intro h
    exact h.reorder hperm hkeys hdrifts

end KeyedGraph

/-- Lists without repetitions that are the same up to order have the same
entries at corresponding positions. -/
theorem exists_equiv_of_perm
    {α : Type} [DecidableEq α] {xs ys : List α} (hperm : xs.Perm ys)
    (hnodup : xs.Nodup) {n m : Nat} (hn : xs.length = n) (hm : ys.length = m) :
    ∃ e : Fin n ≃ Fin m, ∀ i : Fin n, ys[(e i : Nat)]? = xs[(i : Nat)]? := by
  subst hn hm
  let sameMembers : {x // x ∈ xs} ≃ {y // y ∈ ys} :=
    Equiv.subtypeEquivRight fun _ => hperm.mem_iff
  let e := (hnodup.getEquiv xs).trans
    (sameMembers.trans ((hperm.nodup_iff.mp hnodup).getEquiv ys).symm)
  refine ⟨e, fun i => ?_⟩
  have hget : (hperm.nodup_iff.mp hnodup).getEquiv ys (e i) =
      sameMembers (hnodup.getEquiv xs i) := by
    simp [e]
  have hvalue : ys[e i] = xs[i] := congrArg Subtype.val hget
  simpa using hvalue

/-! ## Diagrams graph by graph -/

namespace Diagram

/-- The diagram consists of the graphs, one behind the other. -/
structure Comprises (diagram : Diagram) (graphs : List KeyedGraph) :
    Prop where
  keys_nodup : (graphs.map Prod.fst).Nodup
  length : (places graphs).length = diagram.nodes.length
  faces : ∀ g ∈ graphs, ∀ i k : Nat, (places graphs)[i]? = some (g.1, k) →
    (diagram.nodes.map Node.face)[i]? =
      (g.2.occurrences.cards.map Card.face)[k]?
  linked : ∀ i j : Fin diagram.nodes.length,
    diagram.Linked i j ↔ AtPlaces graphs (Joins graphs) i j

theorem ofWorkflow_comprises
    {style : EdgeStyle} {w : Workflow} {diagram : Diagram}
    (hkeys : (w.subscribers.map Prod.fst).Nodup)
    (h : ofWorkflow style w = .ok diagram) :
    diagram.Comprises w.drawnGraphs := by
  obtain ⟨drawn, hdrawn, hrealizes⟩ := ofWorkflow_realizes h
  have harranges := Workflow.occurrences?_arranges hkeys hdrawn
  refine ⟨Workflow.drawnGraphs_keys_nodup hkeys, ?_, ?_, ?_⟩
  · rw [harranges.length, hrealizes.nodes_length]
    exact drawn.cards_length.symm
  · intro g hg i k hs
    rw [hrealizes.map_face]
    exact harranges.faces g hg i k hs
  · intro i j
    rw [hrealizes.linked_iff]
    exact harranges.arcs i j

/-- The diagrams of the same graphs in two orders match, apart from what
drifts. -/
theorem Comprises.matching
    {diagram diagram' : Diagram} {graphs graphs' : List KeyedGraph}
    (h : diagram.Comprises graphs) (h' : diagram'.Comprises graphs')
    (hperm : graphs.Perm graphs') :
    diagram.Matches diagram' fun i j =>
      AtPlaces graphs (Drifts graphs graphs') i j := by
  obtain ⟨e, he⟩ := exists_equiv_of_perm (places_perm hperm)
    (places_nodup h.keys_nodup) h.length h'.length
  have hplace : ∀ i : Fin diagram.nodes.length, ∃ g ∈ graphs, ∃ k,
      (places graphs)[(i : Nat)]? = some (g.1, k) := by
    intro i
    refine exists_getElem?_places ?_
    rw [h.length]
    exact i.isLt
  have hface : ∀ i, diagram'.nodes[e i].face = diagram.nodes[i].face := by
    intro i
    obtain ⟨g, hg, k, hs⟩ := hplace i
    have hface := h.faces g hg i k hs
    have hface' := h'.faces g (hperm.mem_iff.mp hg) (e i) k ((he i).trans hs)
    simpa using hface'.trans hface.symm
  refine ⟨e, fun i => (Prod.mk.inj (hface i)).1,
    fun i => (Prod.mk.inj (hface i)).2, ?_⟩
  intro i j hexempt
  obtain ⟨g, -, k, hs⟩ := hplace i
  obtain ⟨g', -, k', ht⟩ := hplace j
  have hdrifts : ¬Drifts graphs graphs' (g.1, k) (g'.1, k') :=
    fun hdrifts => hexempt ⟨_, _, hs, ht, hdrifts⟩
  rw [h.linked, h'.linked, AtPlaces, AtPlaces, he, he, hs, ht]
  simpa using joins_iff_of_not_drifts hperm h.keys_nodup hdrifts

end Diagram

/-! ## Orders of subscriber graphs -/

theorem Schedule.InOrder.ready_of_append
    {known : List String} {order later : List Subscriber} {s : Subscriber}
    (h : InOrder known (order ++ s :: later)) :
    Ready (known ++ gained order) s.1 := by
  induction order generalizing known with
  | nil =>
      cases h with
      | cons ready rest => simpa [gained] using ready
  | cons t order ih =>
      cases h with
      | cons ready rest => simpa [gained] using ih rest

namespace Workflow

/-- All graphs of a workflow, the main graph first. -/
def graphs (w : Workflow) : List KeyedGraph :=
  (none, w.main) :: w.subscribers.map fun s => (some s.1, s.2)

/-- Two graphs draw the step, besides the graph with the key. -/
def Contested (w : Workflow) (key stepId : String) : Prop :=
  ∃ g ∈ w.graphs, ∃ g' ∈ w.graphs, g.1 ≠ g'.1 ∧ g.1 ≠ some key ∧
    g'.1 ≠ some key ∧ stepId ∈ g.2.stepIds ∧ stepId ∈ g'.2.stepIds

instance (w : Workflow) (key stepId : String) :
    Decidable (w.Contested key stepId) :=
  inferInstanceAs (Decidable (∃ g ∈ w.graphs, ∃ g' ∈ w.graphs, _))

theorem drawnGraphs_perm
    {w : Workflow} (hwaiting : w.schedule.waiting = []) :
    w.drawnGraphs.Perm w.graphs := by
  have hperm := w.schedule_perm
  rw [hwaiting, List.append_nil] at hperm
  exact (hperm.map _).cons _

variable {main : ChainGraph} {order order' : List Subscriber}

theorem graphs_perm (hperm : order.Perm order') :
    (graphs ⟨main, order⟩).Perm (graphs ⟨main, order'⟩) :=
  (hperm.map _).cons _

theorem Available.reorder
    (hperm : order.Perm order') {id : String}
    (h : Available ⟨main, order⟩ id) : Available ⟨main, order'⟩ id := by
  induction h with
  | main hid => exact .main hid
  | subscriber hmem hkey _ hid ih =>
      exact .subscriber (hperm.mem_iff.mp hmem) hkey ih hid

theorem waiting_eq_nil_reorder
    (hperm : order.Perm order')
    (hwaiting : (schedule ⟨main, order⟩).waiting = []) :
    (schedule ⟨main, order'⟩).waiting = [] := by
  rw [waiting_eq_nil_iff_enabled] at hwaiting ⊢
  intro s hs
  obtain ⟨hkey, hparts⟩ := hwaiting s (hperm.mem_iff.mpr hs)
  exact ⟨hkey, fun part hpart => (hparts part hpart).reorder hperm⟩

/-- A subscriber graph finds every step that it waits for in a graph that is
drawn before it. -/
theorem exists_hostKey?_eq_some
    {w : Workflow} (hkeys : (w.subscribers.map Prod.fst).Nodup) {key : String}
    {graph : ChainGraph} (hmem : (key, graph) ∈ w.schedule.drawn)
    {part : String} (hpart : part ∈ keyParts key) :
    ∃ g ∈ w.drawnGraphs, g.1 ≠ some key ∧ part ∈ g.2.stepIds ∧
      hostKey? w.drawnGraphs key part = some g.1 := by
  obtain ⟨earlier, later, hsplit⟩ := List.append_of_mem hmem
  have hready : Schedule.Ready
      (w.main.stepIds ++ Schedule.gained earlier) key := by
    have hinOrder := Schedule.settle_inOrder w.main.stepIds w.subscribers
    rw [← schedule, hsplit] at hinOrder
    exact hinOrder.ready_of_append
  let drawnBefore : List KeyedGraph :=
    (none, w.main) :: earlier.map fun s => (some s.1, s.2)
  have hgraphs : w.drawnGraphs = drawnBefore ++ (some key, graph) ::
      later.map fun s => (some s.1, s.2) := by
    simp [drawnGraphs, hsplit, drawnBefore]
  have hfresh : some key ∉ drawnBefore.map Prod.fst := by
    have hnodup := drawnGraphs_keys_nodup hkeys
    rw [hgraphs, List.map_append, List.nodup_append] at hnodup
    exact fun hmem => hnodup.2.2 _ hmem (some key) (by simp) rfl
  have hbefore : before w.drawnGraphs (some key) = drawnBefore := by
    rw [hgraphs]
    exact before_append_cons (g := (some key, graph)) hfresh
  obtain ⟨g, hg⟩ : ∃ g, host? drawnBefore part = some g := by
    rcases List.mem_append.mp (hready.2 part hpart) with hmain | hgained
    · exact exists_host?_of_mem List.mem_cons_self hmain
    · obtain ⟨s, hs, hid⟩ := List.mem_flatMap.mp hgained
      have hmem' : ((some s.1, s.2) : KeyedGraph) ∈ drawnBefore := by
        simp [drawnBefore, hs]
      exact exists_host?_of_mem hmem' hid
  have hmem' := mem_of_host? hg
  refine ⟨g, ?_, ?_, stepId_mem_of_host? hg, ?_⟩
  · rw [hgraphs]
    exact List.mem_append_left _ hmem'
  · rintro heq
    exact hfresh (heq ▸ List.mem_map_of_mem hmem')
  · rw [hostKey?, hbefore, hg, Option.map_some]

/-- If a step that a subscriber graph waits for has one host in the one order
and another host in the other, the step is contested. -/
theorem contested_of_hostKey?_ne
    {w w' : Workflow} (hkeys : (w.subscribers.map Prod.fst).Nodup)
    (hwaiting : w.schedule.waiting = [])
    (hkeys' : (w'.subscribers.map Prod.fst).Nodup)
    (hwaiting' : w'.schedule.waiting = []) (hperm : w.graphs.Perm w'.graphs)
    {s : Subscriber} (hs : s ∈ w.subscribers) {part : String}
    (hpart : part ∈ keyParts s.1)
    (hne : hostKey? w.drawnGraphs s.1 part ≠
      hostKey? w'.drawnGraphs s.1 part) : w.Contested s.1 part := by
  have hgraphs := drawnGraphs_perm hwaiting
  have hgraphs' := (drawnGraphs_perm hwaiting').trans hperm.symm
  have hmem : (some s.1, s.2) ∈ w.graphs :=
    List.mem_cons_of_mem _ (List.mem_map_of_mem hs)
  have hdrawn : s ∈ w.schedule.drawn := by
    simpa [drawnGraphs] using hgraphs.mem_iff.mpr hmem
  have hdrawn' : s ∈ w'.schedule.drawn := by
    simpa [drawnGraphs] using hgraphs'.mem_iff.mpr hmem
  obtain ⟨g, hg, hgkey, hgid, hghost⟩ :=
    exists_hostKey?_eq_some hkeys hdrawn hpart
  obtain ⟨g', hg', hgkey', hgid', hghost'⟩ :=
    exists_hostKey?_eq_some hkeys' hdrawn' hpart
  rw [hghost, hghost', Ne, Option.some.injEq] at hne
  exact ⟨g, hgraphs.mem_iff.mp hg, g', hgraphs'.mem_iff.mp hg', hne, hgkey,
    hgkey', hgid, hgid'⟩

/-- For two orders of the subscriber graphs, either there is no diagram in
either order, or there are diagrams that match apart from what drifts.  Only
what hangs off a contested step drifts; if no subscriber graph waits for such a
step, the diagrams are isomorphic. -/
theorem ofGraphs_reordered
    (style : EdgeStyle) (main : ChainGraph) {order order' : List Subscriber}
    (hperm : order.Perm order') (hkeys : (order.map Prod.fst).Nodup) :
    (∃ error error', Diagram.ofGraphs style main order = .error error ∧
      Diagram.ofGraphs style main order' = .error error') ∨
    ∃ diagram diagram', Diagram.ofGraphs style main order = .ok diagram ∧
      Diagram.ofGraphs style main order' = .ok diagram' ∧
      (diagram.Matches diagram' fun i j =>
        AtPlaces (drawnGraphs ⟨main, order⟩)
          (Drifts (drawnGraphs ⟨main, order⟩) (drawnGraphs ⟨main, order'⟩))
          i j) ∧
      (∀ s ∈ order, ∀ part ∈ keyParts s.1,
        hostKey? (drawnGraphs ⟨main, order⟩) s.1 part ≠
            hostKey? (drawnGraphs ⟨main, order'⟩) s.1 part →
          Contested ⟨main, order⟩ s.1 part) ∧
      ((∀ s ∈ order, ∀ part ∈ keyParts s.1,
          ¬Contested ⟨main, order⟩ s.1 part) →
        diagram.Isomorphic diagram') := by
  have hkeys' : (order'.map Prod.fst).Nodup :=
    (hperm.map Prod.fst).nodup_iff.mp hkeys
  by_cases hwaiting : (schedule ⟨main, order⟩).waiting = []
  · have hwaiting' := waiting_eq_nil_reorder hperm hwaiting
    obtain ⟨diagram, hdiagram⟩ := exists_ofWorkflow_eq_ok hwaiting style
    obtain ⟨diagram', hdiagram'⟩ := exists_ofWorkflow_eq_ok hwaiting' style
    have hgraphs := (drawnGraphs_perm hwaiting).trans
      ((graphs_perm hperm).trans (drawnGraphs_perm hwaiting').symm)
    have hmatches := (Diagram.ofWorkflow_comprises hkeys hdiagram).matching
      (Diagram.ofWorkflow_comprises hkeys' hdiagram') hgraphs
    have hcontested : ∀ s ∈ order, ∀ part ∈ keyParts s.1,
        hostKey? (drawnGraphs ⟨main, order⟩) s.1 part ≠
            hostKey? (drawnGraphs ⟨main, order'⟩) s.1 part →
          Contested ⟨main, order⟩ s.1 part :=
      fun s hs part hpart hne => contested_of_hostKey?_ne hkeys hwaiting hkeys'
        hwaiting' (graphs_perm hperm) hs hpart hne
    refine Or.inr ⟨diagram, diagram', hdiagram, hdiagram', hmatches,
      hcontested, fun hfree => hmatches.mono ?_⟩
    rintro i j ⟨-, -, -, -, key, graph, part, hmem, hpart, hne, -⟩
    have hdrawn : (key, graph) ∈ (schedule ⟨main, order⟩).drawn := by
      simpa [drawnGraphs] using hmem
    have hs := schedule_drawn_subset _ hdrawn
    exact hfree (key, graph) hs part hpart
      (hcontested (key, graph) hs part hpart hne)
  · have hwaiting' : (schedule ⟨main, order'⟩).waiting ≠ [] :=
      fun h => hwaiting (waiting_eq_nil_reorder hperm.symm h)
    obtain ⟨error, herror⟩ := exists_ofWorkflow_eq_error hwaiting style
    obtain ⟨error', herror'⟩ := exists_ofWorkflow_eq_error hwaiting' style
    exact Or.inl ⟨error, error', herror, herror'⟩

end Workflow

end Flowchart
