import Flowchart.Proofs.Flow.Metadata
import Flowchart.Proofs.WellFormed
import Flowchart.Proofs.Workflow.Metadata

/-!
# Declared ids survive renaming

A node may get another id than the document declares, but what edges and
condition nodes remember are the declared ids.
-/

namespace Flowchart

/-- The diagrams of both kinds of documents keep the declared ids. -/
theorem diagrams_keepDeclaredIds (style : EdgeStyle) :
    (∀ flow diagram, Diagram.ofFlow style flow = .ok diagram →
      diagram.KeepsDeclaredIds) ∧
    (∀ w diagram, Diagram.ofWorkflow style w = .ok diagram →
      diagram.KeepsDeclaredIds) :=
  ⟨fun _ _ => Diagram.ofFlow_keepsDeclaredIds,
    fun _ _ => Diagram.ofWorkflow_keepsDeclaredIds⟩

theorem clashing_keepDeclaredIds :
    (∃ diagram, Diagram.ofFlow .standard clashingFlow = .ok diagram ∧
      diagram.KeepsDeclaredIds ∧
      (diagram.edges.map fun edge =>
          (edge.source, edge.previousStepId, edge.target, edge.nextStepId)) =
        [("go", "go", "go-1", "go"), ("go-1", "go", "go-1-2", "go-1"),
          ("go-1-2", "go-1", "go-4-when-0", "go-4-when-0"),
          ("go-4-when-0", "go-4-when-0", "go-4-when-0-4", "go"),
          ("go-4-when-0", "go-4-when-0", "conditional-4-when-1",
            "conditional-4-when-1"),
          ("go-4-when-0-4", "go-4-when-0", "go-4", "go"),
          ("go-4", "go", "", ""), ("", "", "-6", "")]) ∧
    ∃ diagram, Diagram.ofWorkflow .standard clashingWorkflow = .ok diagram ∧
      diagram.KeepsDeclaredIds := by
  constructor
  · have hok := Diagram.ofFlow_eq_ok
      (by decide : Entry.flowMismatch? 0 false clashingFlow.foldElse = none)
      .standard
    exact ⟨_, hok, (diagrams_keepDeclaredIds .standard).1 _ _ hok,
      by decide +kernel⟩
  · have hwaiting : clashingWorkflow.schedule.waiting = [] :=
      List.isEmpty_iff.mp (by decide +kernel)
    obtain ⟨diagram, hok⟩ := Workflow.exists_ofWorkflow_eq_ok hwaiting .standard
    exact ⟨diagram, hok, (diagrams_keepDeclaredIds .standard).2 _ _ hok⟩

end Flowchart
