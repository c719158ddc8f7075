import Flowchart.Proofs.Workflow.Renaming
import Flowchart.Proofs.Workflow.Reordering

/-!
# What depends on the order of subscriber graphs

Subscriber graphs hang off the most recent occurrence of a step, so that the
order in which they are gone through can be seen in the diagram.  Nothing else
depends on it.  Every order in which the graphs can be drawn comes up here: if
each is ready when its turn comes, one sweep draws them in the order of the
list.

A renaming of steps changes the order of the keys as well.  It has two effects,
one after the other: the labels change, and the subscriber graphs are gone
through in another order.
-/

namespace Flowchart

open Progress (keyParts)
open KeyedGraph

/-- For two orders of the subscriber graphs, either there is no diagram in
either order, or there are diagrams that match apart from what drifts.  A step
has different hosts in the two orders only if it is contested, that is, drawn by
two graphs besides the one that waits for it; so nothing drifts if no key names
a contested step.  A renaming that keeps the order changes nothing but the
labels. -/
theorem diagrams_reordered_and_renamed (style : EdgeStyle) :
    (∀ (main : ChainGraph) (order order' : List Subscriber),
      order.Perm order' → (order.map Prod.fst).Nodup →
      (∃ error error', Diagram.ofGraphs style main order = .error error ∧
        Diagram.ofGraphs style main order' = .error error') ∨
      ∃ diagram diagram', Diagram.ofGraphs style main order = .ok diagram ∧
        Diagram.ofGraphs style main order' = .ok diagram' ∧
        (diagram.Matches diagram' fun i j =>
          AtPlaces (Workflow.drawnGraphs ⟨main, order⟩)
            (Drifts (Workflow.drawnGraphs ⟨main, order⟩)
              (Workflow.drawnGraphs ⟨main, order'⟩)) i j) ∧
        (∀ s ∈ order, ∀ part ∈ keyParts s.1,
          hostKey? (Workflow.drawnGraphs ⟨main, order⟩) s.1 part ≠
              hostKey? (Workflow.drawnGraphs ⟨main, order'⟩) s.1 part →
            Workflow.Contested ⟨main, order⟩ s.1 part) ∧
        ((∀ s ∈ order, ∀ part ∈ keyParts s.1,
            ¬Workflow.Contested ⟨main, order⟩ s.1 part) →
          diagram.Isomorphic diagram')) ∧
    (∀ rename : String → String, rename.Injective →
      ∀ w w' : Workflow, w.Renames rename w' →
      (∃ error error', Diagram.ofWorkflow style w = .error error ∧
        Diagram.ofWorkflow style w' = .error error') ∨
      ∃ diagram diagram', Diagram.ofWorkflow style w = .ok diagram ∧
        Diagram.ofWorkflow style w' = .ok diagram' ∧
        (diagram.relabelled rename).Isomorphic diagram') := by
  constructor
  · intro main order order' hperm hkeys
    exact Workflow.ofGraphs_reordered style main hperm hkeys
  · intro rename hrename w w' h
    exact Diagram.ofWorkflow_renamed style hrename h

/-! ## Rivals -/

/-- A step with nothing but an id. -/
def bareStep (id : String) : ChainStep := ⟨id, none, none, none, none⟩

/-- Two graphs draw the same step, and then a third one hangs off it. -/
def rivalWorkflow (shared : String) : Workflow where
  main := ⟨[bareStep "a", bareStep "b"], []⟩
  subscribers :=
    [("a", ⟨[bareStep shared], []⟩), ("b", ⟨[bareStep shared], []⟩),
      (shared, ⟨[bareStep "last"], []⟩)]

/-- The same workflow, but the third graph does not wait for the second. -/
def hastyWorkflow (shared : String) : Workflow where
  main := ⟨[bareStep "a", bareStep "b"], []⟩
  subscribers :=
    [("a", ⟨[bareStep shared], []⟩), (shared, ⟨[bareStep "last"], []⟩),
      ("b", ⟨[bareStep shared], []⟩)]

theorem rivalWorkflow_and_courierWorkflow_reordered :
    (∃ diagram diagram',
      Diagram.ofWorkflow .standard (rivalWorkflow "x") = .ok diagram ∧
      Diagram.ofWorkflow .standard (hastyWorkflow "x") = .ok diagram' ∧
      (diagram.Matches diagram' fun i j =>
        AtPlaces (rivalWorkflow "x").drawnGraphs
          (Drifts (rivalWorkflow "x").drawnGraphs
            (hastyWorkflow "x").drawnGraphs) i j) ∧
      (rivalWorkflow "x").Contested "x" "x") ∧
    (∃ diagram diagram',
      Diagram.ofWorkflow .standard courierWorkflow = .ok diagram ∧
      Diagram.ofGraphs .standard courierWorkflow.main
        courierWorkflow.subscribers.reverse = .ok diagram' ∧
      diagram.Isomorphic diagram') ∧
    ∃ diagram diagram',
      Diagram.ofWorkflow .standard (rivalWorkflow "x") = .ok diagram ∧
      Diagram.ofWorkflow .standard (rivalWorkflow "ab") = .ok diagram' ∧
      (diagram.relabelled (Equiv.swap "x" "ab")).Isomorphic diagram' := by
  have hrival : (rivalWorkflow "x").schedule.waiting = [] :=
    List.isEmpty_iff.mp (by decide +kernel)
  have hcourier : courierWorkflow.schedule.waiting = [] :=
    List.isEmpty_iff.mp (by decide +kernel)
  obtain ⟨_, hrivalOk⟩ := Workflow.exists_ofWorkflow_eq_ok hrival .standard
  obtain ⟨_, hcourierOk⟩ := Workflow.exists_ofWorkflow_eq_ok hcourier .standard
  obtain ⟨hreordered, hrenamed⟩ := diagrams_reordered_and_renamed .standard
  refine ⟨?_, ?_, ?_⟩
  · have hperm : (rivalWorkflow "x").subscribers.Perm
        (hastyWorkflow "x").subscribers := (List.Perm.swap _ _ _).cons _
    rcases hreordered (rivalWorkflow "x").main _ _ hperm (by decide) with
      ⟨error, -, herror, -⟩ |
      ⟨diagram, diagram', hok, hok', hmatches, hcontested, -⟩
    · cases hrivalOk.symm.trans herror
    · exact ⟨diagram, diagram', hok, hok', hmatches,
        hcontested ("x", ⟨[bareStep "last"], []⟩) (by simp [rivalWorkflow]) "x"
          (by decide +kernel) (by decide +kernel)⟩
  · have hperm := (List.reverse_perm courierWorkflow.subscribers).symm
    rcases hreordered courierWorkflow.main _ _ hperm (by decide) with
      ⟨error, -, herror, -⟩ | ⟨diagram, diagram', hok, hok', -, -, hisomorphic⟩
    · cases hcourierOk.symm.trans herror
    · exact ⟨diagram, diagram', hok, hok', hisomorphic (by decide +kernel)⟩
  · have hrenames : (rivalWorkflow "x").Renames (Equiv.swap "x" "ab")
        (rivalWorkflow "ab") := by
      refine ⟨?_, ?_⟩
      · exact .cons (.cons ⟨by decide, rfl, rfl, rfl⟩ .nil)
          (.cons (.cons ⟨by decide, rfl, rfl, rfl⟩ .nil) .nil)
      · refine .cons ⟨by decide +kernel, ?_⟩ (.cons ⟨by decide +kernel, ?_⟩
          (.cons ⟨by decide +kernel, ?_⟩ .nil))
        all_goals
          exact .cons (.cons ⟨by decide, rfl, rfl, rfl⟩ .nil) .nil
    rcases hrenamed _ (Equiv.injective _) _ _ hrenames with
      ⟨error, -, herror, -⟩ | hok
    · cases hrivalOk.symm.trans herror
    · exact hok

/-- The shape of a diagram can be read off the occurrences. -/
theorem Workflow.exists_shape
    (w : Workflow) (faces : List (NodeKind × String)) (arcs : List (Nat × Nat))
    (hwaiting : w.schedule.waiting = [])
    (hfaces : w.occurrences?.map (fun drawn => drawn.cards.map Card.face) =
      some faces)
    (harcs : w.occurrences?.map Occurrences.arcs = some arcs) :
    ∃ diagram, Diagram.ofWorkflow .standard w = .ok diagram ∧
      diagram.nodes.length = faces.length ∧
      (∀ i : Fin diagram.nodes.length,
        faces[(i : Nat)]? = some (getElem diagram.nodes i i.isLt).face) ∧
      ∀ i j, diagram.Linked i j ↔ ((i : Nat), (j : Nat)) ∈ arcs := by
  obtain ⟨diagram, hok⟩ := exists_ofWorkflow_eq_ok hwaiting .standard
  obtain ⟨drawn, hdrawn, hrealizes⟩ := Diagram.ofWorkflow_realizes hok
  rw [hdrawn, Option.map_some, Option.some.injEq] at hfaces harcs
  have hmap : diagram.nodes.map Node.face = faces :=
    hrealizes.map_face.trans hfaces
  refine ⟨diagram, hok, ?_, ?_, ?_⟩
  · rw [← hmap, List.length_map]
  · intro i
    rw [← hmap]
    simp
  · intro i j
    rw [hrealizes.linked_iff, ← harcs]
    rfl

/-- If the third graph waits, the last step stands behind both rivals and `b`;
otherwise nothing stands two steps behind `b`. -/
theorem rivalWorkflow_not_isomorphic :
    (rivalWorkflow "x").subscribers.Perm (hastyWorkflow "x").subscribers ∧
    (rivalWorkflow "x").KeysAscending ∧
    ∃ diagram diagram',
      Diagram.ofWorkflow .standard (rivalWorkflow "x") = .ok diagram ∧
      Diagram.ofWorkflow .standard (hastyWorkflow "x") = .ok diagram' ∧
      ¬diagram.Isomorphic diagram' := by
  refine ⟨(List.Perm.swap _ _ _).cons _, ?_, ?_⟩
  · unfold Workflow.KeysAscending
    decide
  · obtain ⟨diagram, hok, hlength, hfaces, hlinked⟩ :=
      (rivalWorkflow "x").exists_shape
        [(.standard, "a"), (.standard, "b"), (.standard, "x"),
          (.standard, "x"), (.standard, "last")]
        [(0, 2), (1, 3), (3, 4)] (List.isEmpty_iff.mp (by decide +kernel))
        (by decide +kernel) (by decide +kernel)
    obtain ⟨diagram', hok', -, hfaces', hlinked'⟩ :=
      (hastyWorkflow "x").exists_shape
        [(.standard, "a"), (.standard, "b"), (.standard, "x"),
          (.standard, "last"), (.standard, "x")]
        [(0, 2), (2, 3), (1, 4)] (List.isEmpty_iff.mp (by decide +kernel))
        (by decide +kernel) (by decide +kernel)
    refine ⟨diagram, diagram', hok, hok', ?_⟩
    rintro ⟨e, h⟩
    let b : Fin diagram.nodes.length := ⟨1, by simp [hlength]⟩
    let x : Fin diagram.nodes.length := ⟨3, by simp [hlength]⟩
    let last : Fin diagram.nodes.length := ⟨4, by simp [hlength]⟩
    have hbx : ((e b : Nat), (e x : Nat)) ∈ [(0, 2), (2, 3), (1, 4)] := by
      rw [← hlinked', h.linked b x id, hlinked]
      simp [b, x]
    have hxlast : ((e x : Nat), (e last : Nat)) ∈
        [(0, 2), (2, 3), (1, 4)] := by
      rw [← hlinked', h.linked x last id, hlinked]
      simp [x, last]
    have heb : (e b : Nat) = 0 := by
      simp only [List.mem_cons, Prod.mk.injEq, List.not_mem_nil, or_false]
        at hbx hxlast
      omega
    have hb : some diagram.nodes[b].face = some (.standard, "b") :=
      (hfaces b).symm
    have ha : some diagram'.nodes[e b].face = some (.standard, "a") := by
      rw [← hfaces' (e b), heb]
      rfl
    have hlabel := h.label b
    rw [Option.some.injEq, Node.face, Prod.mk.injEq] at ha hb
    rw [ha.2, hb.2] at hlabel
    exact absurd hlabel (by decide)

end Flowchart
