import Flowchart.Layout.Basic
import Flowchart.Proofs.Flow.Wiring
import Flowchart.Proofs.Layout.Ranking
import Flowchart.Proofs.Workflow.Wiring

/-!
# Diagrams run downwards

Nodes are drawn in an order in which every edge leads from a node to a later
one.  So a diagram has no cycles, its ranks are lengths of longest paths in the
whole diagram, and every edge leads from a rank to a greater one.
-/

namespace Flowchart

open Layout

namespace Diagram

theorem leads_arcs_iff {diagram : Diagram} {id next : String} :
    Leads diagram.arcs id next ↔ (id, next) ∈ diagram.ends := by
  simp [Leads, arcs, ends, Edge.ends]

/-- Ranks for the nodes of a diagram, along all edges. -/
structure RankedDown (diagram : Diagram) (ranks : Ranks) : Prop where
  /-- Every node has one rank, and nothing else has one. -/
  ids : (ranks.map Prod.fst).Perm diagram.nodeIds
  lt : ∀ edge ∈ diagram.edges,
    rankOf ranks edge.source < rankOf ranks edge.target
  longest : ∀ id ∈ diagram.nodeIds,
    IsGreatest {n | PathTo (Leads diagram.arcs) n id} (rankOf ranks id)

/-- The nodes of a diagram stand in the order of its edges.  A layout takes the
place of a node in this order for its priority; the ranks are the same for any
other priority. -/
structure RunsDown (diagram : Diagram) : Prop where
  source_first : ∀ edge ∈ diagram.edges, ∃ i j : Nat, i < j ∧
    diagram.nodeIds[i]? = some edge.source ∧
    diagram.nodeIds[j]? = some edge.target
  acyclic : Acyclic diagram.arcs
  ranked : ∀ priority,
    diagram.RankedDown (computeRanks priority diagram.nodeIds diagram.arcs)

namespace Realizes

variable {diagram : Diagram} {outline : Outline}

theorem exists_numbers
    (h : diagram.Realizes outline) {id next : String}
    (harc : Leads diagram.arcs id next) :
    ∃ i j : Nat, i < j ∧ diagram.nodeIds[i]? = some id ∧
      diagram.nodeIds[j]? = some next := by
  obtain ⟨i, j, hij, hi, hj⟩ :=
    (h.mem_ends_iff id next).mp (leads_arcs_iff.mp harc)
  exact ⟨i, j, (h.arcs_lt _ hij).1, hi, hj⟩

theorem acyclic (h : diagram.Realizes outline) : Acyclic diagram.arcs := by
  have hnumber : ∀ {i id}, diagram.nodeIds[i]? = some id →
      diagram.nodeIds.idxOf id = i := by
    intro i id hi
    obtain ⟨hlt, rfl⟩ := List.getElem?_eq_some_iff.mp hi
    exact h.nodeIds_nodup.idxOf_getElem i hlt
  refine acyclic_of_lt diagram.nodeIds.idxOf fun harc => ?_
  obtain ⟨i, j, hlt, hi, hj⟩ := h.exists_numbers harc
  rw [hnumber hi, hnumber hj]
  exact hlt

/-- All arcs of a diagram join two different nodes. -/
theorem leads_properArcs_iff
    (h : diagram.Realizes outline) (id next : String) :
    Leads (properArcs diagram.nodeIds diagram.arcs) id next ↔
      Leads diagram.arcs id next := by
  rw [Layout.leads_properArcs_iff, and_iff_left_iff_imp]
  intro harc
  obtain ⟨i, j, hlt, hi, hj⟩ := h.exists_numbers harc
  refine ⟨?_, List.mem_of_getElem? hi, List.mem_of_getElem? hj⟩
  rintro rfl
  exact absurd (h.number_unique hi hj) (Nat.ne_of_lt hlt)

theorem rankedDown
    (h : diagram.Realizes outline) (priority : String → Nat) :
    diagram.RankedDown
      (computeRanks priority diagram.nodeIds diagram.arcs) := by
  have hrises : Rises (Leads diagram.arcs)
      (rankOf (computeRanks priority diagram.nodeIds diagram.arcs)) :=
    (computeRanks_rises_of_acyclic priority _ _
      (h.acyclic.properArcs _)).congr h.leads_properArcs_iff
  refine ⟨?_, ?_, fun id _ => hrises.isGreatest id⟩
  · rw [List.perm_ext_iff_of_nodup (computeRanks_ids_nodup _ _ _)
      h.nodeIds_nodup]
    exact fun id => mem_computeRanks_ids _ _ _
  · intro edge hedge
    exact hrises.lt (leads_arcs_iff.mpr (List.mem_map_of_mem hedge))

theorem runsDown (h : diagram.Realizes outline) : diagram.RunsDown where
  source_first _ hedge :=
    h.exists_numbers (leads_arcs_iff.mpr (List.mem_map_of_mem hedge))
  acyclic := h.acyclic
  ranked := h.rankedDown

end Realizes

end Diagram

/-- In every diagram of a document, edges lead downwards. -/
theorem diagrams_runDown (style : EdgeStyle) :
    (∀ flow diagram, Diagram.ofFlow style flow = .ok diagram →
      diagram.RunsDown) ∧
    (∀ w diagram, Diagram.ofWorkflow style w = .ok diagram →
      diagram.RunsDown) := by
  constructor
  · intro flow diagram hok
    obtain ⟨haligned, rfl⟩ := Diagram.ofFlow_eq_ok_iff.mp hok
    exact (Diagram.ofFoldedFlow_realizes haligned style).runsDown
  · intro w diagram hok
    obtain ⟨drawn, -, hrealizes⟩ := Diagram.ofWorkflow_realizes hok
    exact hrealizes.runsDown

theorem forkedFlow_and_courierWorkflow_runDown :
    (∃ diagram, Diagram.ofFlow .standard forkedFlow = .ok diagram ∧
      diagram.RunsDown ∧
      diagram.nodeIds.map (rankOf (computeRanks
          (fun id => (placesOf diagram.nodeIds).getD id 0) diagram.nodeIds
          diagram.arcs)) =
        [0, 1, 1, 2, 3, 2, 2, 3, 4, 5]) ∧
    ∃ diagram, Diagram.ofWorkflow .standard courierWorkflow = .ok diagram ∧
      diagram.RunsDown := by
  constructor
  · have hok := Diagram.ofFlow_eq_ok
      (by decide : Entry.flowMismatch? 0 false forkedFlow.foldElse = none)
      .standard
    exact ⟨_, hok, (diagrams_runDown .standard).1 _ _ hok, by decide +kernel⟩
  · have hwaiting : courierWorkflow.schedule.waiting = [] :=
      List.isEmpty_iff.mp (by decide +kernel)
    obtain ⟨diagram, hok⟩ := Workflow.exists_ofWorkflow_eq_ok hwaiting .standard
    exact ⟨diagram, hok, (diagrams_runDown .standard).2 _ _ hok⟩

end Flowchart
