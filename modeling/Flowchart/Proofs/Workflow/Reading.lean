import Flowchart.Proofs.Document.Records
import Flowchart.Proofs.Workflow.Schedule
import Flowchart.Workflow.Decode

/-!
# Subscriber keys of workflows that are read

The subscriber graphs of a workflow that is read from a document stand in
ascending order of their keys, because the document is ordered.
-/

namespace Flowchart

namespace Workflow

theorem decode_keysAscending
    {tree : Tree} (htree : tree.Ordered) {w : Workflow}
    (h : decode tree = .ok w) : w.KeysAscending := by
  obtain ⟨slots, hslots, hread⟩ :=
    RecordDecoder.exists_slots_of_decode_eq_ok htree h
  obtain ⟨build, subscribers, hbuild, hsubscribers, rfl⟩ :=
    RecordDecoder.exists_of_seq_read hread
  obtain ⟨main, -, rfl⟩ := RecordDecoder.exists_of_map_read hbuild
  exact RecordDecoder.withDefault_ensures Decoder.fields_ascending .nil hslots
    hsubscribers

/-- The keys of every workflow that is read from a text ascend. -/
theorem ofText_keysAscending
    {text : String} {w : Workflow} (h : ofText text = .ok w) :
    w.KeysAscending := by
  unfold ofText at h
  have hdocument := eq_ok_of_mapError_eq_ok h
  cases htree : Tree.ofText text with
  | error fault => simp [htree, bind, Except.bind] at hdocument
  | ok tree =>
      rw [htree] at hdocument
      change ofDocument tree = .ok w at hdocument
      cases Tree.ofText_ordered htree with
      | null =>
          cases hdocument
          exact .nil
      | map hascending hvalues =>
          exact decode_keysAscending (.map hascending hvalues)
            (eq_ok_of_mapError_eq_ok hdocument)
      | _ => cases hdocument

end Workflow

end Flowchart
