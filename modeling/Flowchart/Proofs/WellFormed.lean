import Flowchart.Proofs.Flow.Sound
import Flowchart.Proofs.Workflow.Sound

/-!
# Diagrams are well formed

Whatever ids a document declares, repeated, empty, hyphenated or equal to an id
that is made for a node, every diagram of a flow and of a chained workflow is
well formed.
-/

namespace Flowchart

namespace Diagram

theorem ofFlow_wellFormed
    {style : EdgeStyle} {flow : Flow} {diagram : Diagram}
    (h : ofFlow style flow = .ok diagram) : diagram.WellFormed := by
  obtain ⟨haligned, rfl⟩ := ofFlow_eq_ok_iff.mp h
  exact (sound_drawFlow haligned).wellFormed_finish

theorem ofWorkflow_wellFormed
    {style : EdgeStyle} {w : Workflow} {diagram : Diagram}
    (h : ofWorkflow style w = .ok diagram) : diagram.WellFormed := by
  obtain ⟨-, p, hdraws, rfl⟩ := Workflow.draws_of_ofWorkflow_eq_ok h
  exact ((w.start_sound style).draws hdraws).builder.wellFormed_finish

end Diagram

/-- Both kinds of documents have well-formed diagrams only. -/
theorem diagrams_wellFormed (style : EdgeStyle) :
    (∀ flow diagram, Diagram.ofFlow style flow = .ok diagram →
      diagram.WellFormed) ∧
    (∀ w diagram, Diagram.ofWorkflow style w = .ok diagram →
      diagram.WellFormed) :=
  ⟨fun _ _ => Diagram.ofFlow_wellFormed,
    fun _ _ => Diagram.ofWorkflow_wellFormed⟩

/-- Ids that repeat, that are empty, that are equal to the name which a repeated
id gets, and that are equal to the name of a condition node. -/
def clashingFlow : Flow :=
  [.step (.plain "go" none), .step (.plain "go" none),
    .step (.plain "go-1" none), .step (.plain "go-4-when-0" none),
    .conditional [[.step (.plain "go" none)], []]
      [.raw .ifKind "ready", .raw .elseKind ""],
    .step (.plain "" none), .step (.plain "" none)]

/-- Ids that are equal to the names of the nodes of a loop. -/
def clashingWorkflow : Workflow where
  main :=
    ⟨[⟨"go", none, none, none, none⟩],
      [("go",
        [⟨"go-2-loop", none, none, none, none⟩,
          ⟨"go", none, none, some .whileKind, none⟩])]⟩
  subscribers :=
    [("go", ⟨[⟨"go-2-continue", none, some (.text "late"), none, none⟩], []⟩)]

theorem clashing_wellFormed :
    (∃ diagram, Diagram.ofFlow .standard clashingFlow = .ok diagram ∧
      diagram.WellFormed ∧
      diagram.nodeIds =
        ["go", "go-1", "go-1-2", "go-4-when-0", "go-4-when-0-4", "go-4",
          "conditional-4-when-1", "", "-6"]) ∧
    ∃ diagram, Diagram.ofWorkflow .standard clashingWorkflow = .ok diagram ∧
      diagram.WellFormed := by
  constructor
  · have hok := Diagram.ofFlow_eq_ok
      (by decide : Entry.flowMismatch? 0 false clashingFlow.foldElse = none)
      .standard
    exact ⟨_, hok, (diagrams_wellFormed .standard).1 _ _ hok,
      by decide +kernel⟩
  · have hwaiting : clashingWorkflow.schedule.waiting = [] :=
      List.isEmpty_iff.mp (by decide +kernel)
    obtain ⟨diagram, hok⟩ := Workflow.exists_ofWorkflow_eq_ok hwaiting .standard
    exact ⟨diagram, hok, (diagrams_wellFormed .standard).2 _ _ hok⟩

end Flowchart
