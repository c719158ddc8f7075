import Flowchart.Proofs.Flow.Naming
import Flowchart.Proofs.WellFormed
import Flowchart.Proofs.Workflow.Naming

/-!
# Renaming is minimal

A node has the id that it asks for unless another node has it, and no greater
number is appended than the other nodes of the finished diagram demand.
-/

namespace Flowchart

/-- The diagrams of both kinds of documents have least names.  The cards say
what a node asks for: the id that the document declares for it or, if there is
none, one that is made from its step, its rank and its role. -/
theorem diagrams_namesLeast (style : EdgeStyle) :
    (∀ flow diagram, Diagram.ofFlow style flow = .ok diagram →
      diagram.NamesLeast (Entry.flowCards 0 flow.foldElse)) ∧
    (∀ w diagram, Diagram.ofWorkflow style w = .ok diagram →
      ∃ drawn, w.occurrences? = some drawn ∧
        diagram.NamesLeast drawn.cards) := by
  refine ⟨fun flow diagram h => ?_, fun w diagram h => ?_⟩
  · obtain ⟨haligned, rfl⟩ := Diagram.ofFlow_eq_ok_iff.mp h
    exact Diagram.ofFoldedFlow_namesLeast haligned style
  · exact Diagram.ofWorkflow_namesLeast h

theorem clashing_namesLeast :
    (∃ diagram, Diagram.ofFlow .standard clashingFlow = .ok diagram ∧
      diagram.NamesLeast (Entry.flowCards 0 clashingFlow.foldElse) ∧
      (Entry.flowCards 0 clashingFlow.foldElse).map
          (fun card => (card.baseId, card.rank)) =
        [("go", 0), ("go", 1), ("go-1", 2), ("go-4-when-0", 3),
          ("go-4-when-0", 4), ("go", 4), ("conditional-4-when-1", 4),
          ("", 5), ("", 6)] ∧
      diagram.nodeIds =
        ["go", "go-1", "go-1-2", "go-4-when-0", "go-4-when-0-4", "go-4",
          "conditional-4-when-1", "", "-6"]) ∧
    ∃ diagram drawn,
      Diagram.ofWorkflow .standard clashingWorkflow = .ok diagram ∧
      clashingWorkflow.occurrences? = some drawn ∧
      diagram.NamesLeast drawn.cards := by
  constructor
  · have hok := Diagram.ofFlow_eq_ok
      (by decide : Entry.flowMismatch? 0 false clashingFlow.foldElse = none)
      .standard
    exact ⟨_, hok, (diagrams_namesLeast .standard).1 _ _ hok,
      by decide +kernel, by decide +kernel⟩
  · have hwaiting : clashingWorkflow.schedule.waiting = [] :=
      List.isEmpty_iff.mp (by decide +kernel)
    obtain ⟨diagram, hok⟩ := Workflow.exists_ofWorkflow_eq_ok hwaiting .standard
    obtain ⟨drawn, hdrawn, hleast⟩ :=
      (diagrams_namesLeast .standard).2 _ _ hok
    exact ⟨diagram, drawn, hok, hdrawn, hleast⟩

end Flowchart
