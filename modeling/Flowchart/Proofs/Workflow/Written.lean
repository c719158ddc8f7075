import Flowchart.Proofs.Flow.Written
import Flowchart.Workflow.Decode

/-!
# Reading written workflows

Not every chained workflow is read back as it was: a guard may be null, which
stands for no guard, and the followers of a head called `initial` are written
under the key of the heads.  None of this occurs in workflows that were read
from a document, and those are read back unchanged.
-/

namespace Flowchart

open RecordDecoder

/-! ## Workflows that documents hold -/

/-- The guard is one that a document can hold. -/
def ChainStep.Normal (step : ChainStep) : Prop :=
  ∀ guard ∈ step.guard, guard.Ordered ∧ guard ≠ .null

/-- The graph is one that a document can hold. -/
structure ChainGraph.Normal (graph : ChainGraph) : Prop where
  heads : ∀ head ∈ graph.heads, head.Normal
  ascending : Tree.Ascending graph.followers
  keys : ∀ follower ∈ graph.followers, follower.1 ≠ headsKey
  followers : ∀ follower ∈ graph.followers, ∀ step ∈ follower.2, step.Normal

/-- The workflow is one that a document can hold. -/
structure Workflow.Normal (w : Workflow) : Prop where
  main : w.main.Normal
  ascending : Tree.Ascending w.subscribers
  subscribers : ∀ subscriber ∈ w.subscribers, subscriber.2.Normal

namespace ChainStep

theorem guard_ensures :
    Decoder.Ensures (.nullable .ok)
      fun guard? => ∀ guard ∈ guard?, guard.Ordered ∧ guard ≠ .null := by
  intro tree guard? htree hread guard hguard
  by_cases hnull : tree = .null
  · subst hnull
    cases hread
    cases hguard
  · rw [Decoder.nullable_of_ne_null hnull] at hread
    cases hread
    cases hguard
    exact ⟨htree, hnull⟩

theorem settings_ensures :
    Settings.decode.Ensures fun settings =>
      ∀ guard ∈ settings.guard, guard.Ordered ∧ guard ≠ .null := by
  intro tree settings htree hread
  obtain ⟨slots, hslots, hrecord⟩ := exists_slots_of_decode_eq_ok htree hread
  obtain ⟨_, label, hkinds, -, rfl⟩ := exists_of_seq_read hrecord
  obtain ⟨_, kind, hguards, -, rfl⟩ := exists_of_seq_read hkinds
  obtain ⟨guard?, hguard, rfl⟩ := exists_of_map_read hguards
  refine field_ensures guard_ensures ?_ hslots hguard
  rintro _ ⟨⟩ _ ⟨⟩

theorem decode_ensures : decode.Ensures Normal := by
  intro tree step htree hread
  obtain ⟨slots, hslots, hrecord⟩ := exists_slots_of_decode_eq_ok htree hread
  obtain ⟨_, settings, hname, hsettings, rfl⟩ := exists_of_seq_read hrecord
  obtain ⟨name, -, rfl⟩ := exists_of_map_read hname
  refine withDefault_ensures settings_ensures ?_ hslots hsettings
  rintro _ ⟨⟩

end ChainStep

theorem ChainGraph.empty_normal : empty.Normal :=
  ⟨by simp [empty], .nil, by simp [empty], by simp [empty]⟩

theorem ChainGraph.normal_of_read
    {fields : List (String × Tree)} {heads : List ChainStep}
    {followers : List (String × List ChainStep)}
    (hfields : (Tree.map fields).Ordered)
    (hheads : ∀ head ∈ heads, head.Normal)
    (hread : Decoder.fields (.list ChainStep.decode)
      (.map (fields.filter fun field => field.1 != headsKey)) =
        .ok followers) :
    Normal ⟨heads, followers⟩ := by
  have hothers : Tree.Ordered
      (.map (fields.filter fun field => field.1 != headsKey)) := by
    cases hfields with
    | map hascending hvalues =>
        exact .map (hascending.filter _) fun field hfield =>
          hvalues field (List.mem_of_mem_filter hfield)
  refine ⟨hheads, Decoder.fields_ascending _ _ hothers hread, ?_,
    ChainStep.decode_ensures.list.fields _ _ hothers hread⟩
  intro follower hfollower
  have hkey : follower.1 ∈ followers.map Prod.fst :=
    List.mem_map_of_mem hfollower
  rw [Decoder.fields_keys hread] at hkey
  obtain ⟨field, hfield, heq⟩ := List.mem_map.mp hkey
  rw [← heq]
  exact bne_iff_ne.mp (List.mem_filter.mp hfield).2

theorem ChainGraph.decode_ensures : decode.Ensures Normal := by
  intro tree graph htree hread
  cases tree with
  | map fields =>
      simp only [decode] at hread
      split at hread
      · next headsTree hlookup =>
          have hheadsTree : headsTree.Ordered := by
            cases htree with
            | map _ hvalues => exact hvalues _ (Tree.mem_of_lookup hlookup)
          obtain ⟨heads, hheads, hrest⟩ := exists_of_bind_eq_ok hread
          obtain ⟨followers, hfollowers, hgraph⟩ := exists_of_bind_eq_ok hrest
          cases hgraph
          exact normal_of_read htree
            (ChainStep.decode_ensures.list _ _ hheadsTree hheads) hfollowers
      · obtain ⟨heads, hheads, hrest⟩ := exists_of_bind_eq_ok hread
        obtain ⟨followers, hfollowers, hgraph⟩ := exists_of_bind_eq_ok hrest
        cases hheads
        cases hgraph
        exact normal_of_read htree (by simp) hfollowers
  | _ => cases hread

theorem Workflow.decode_ensures : decode.Ensures Normal := by
  intro tree w htree hread
  obtain ⟨slots, hslots, hrecord⟩ := exists_slots_of_decode_eq_ok htree hread
  obtain ⟨_, subscribers, hmains, hsubscribers, rfl⟩ :=
    exists_of_seq_read hrecord
  obtain ⟨main, hmain, rfl⟩ := exists_of_map_read hmains
  exact ⟨withDefault_ensures ChainGraph.decode_ensures ChainGraph.empty_normal
      hslots hmain,
    withDefault_ensures Decoder.fields_ascending .nil hslots hsubscribers,
    withDefault_ensures ChainGraph.decode_ensures.fields (by simp) hslots
      hsubscribers⟩

/-! ## Reading what is written -/

theorem ChainStep.decodeName_written
    (id : String) (description : Option String) :
    decodeName (Tree.map ([("id", .text id)] ++
      Tree.optionalField "description" (description.map .text))).sorted =
      .ok (id, description) := by
  refine Reads.decode (((requiredText_reads ?_).map _).seq
    (optionalText_reads ?_))
  all_goals simp [Function.comp_def]

theorem ChainStep.Normal.decode_toTree
    {step : ChainStep} (h : step.Normal) :
    decode step.toTree.sorted = .ok step := by
  have hguard : ∀ guard ∈ step.guard,
      guard.sorted ≠ .null ∧
      (Except.ok guard.sorted : Except DecodeError Tree) = .ok guard := by
    intro guard hguard
    obtain ⟨hordered, hnull⟩ := h guard hguard
    rw [hordered.sorted]
    exact ⟨hnull, rfl⟩
  have hkind : ∀ kind ∈ step.loopKind, Tree.text kind.word ≠ .null ∧
      Decoder.oneOf LoopKind.words false (.text kind.word) = .ok kind :=
    fun kind _ =>
      ⟨Tree.noConfusion, Decoder.oneOf_written kind.lookup_word false⟩
  have hsettings : Settings.decode (Tree.map
      (Tree.optionalField "when" step.guard ++
        Tree.optionalField "loopType"
          (step.loopKind.map fun kind => .text kind.word) ++
        Tree.optionalField "loopLabel" (step.loopLabel.map .text))).sorted =
      .ok ⟨step.guard, step.loopKind, step.loopLabel⟩ := by
    refine Reads.decode ((((optional_reads ?_ hguard).map _).seq
      (optional_reads ?_ hkind)).seq (optionalText_reads ?_))
    all_goals simp [Function.comp_def]
  have hname := decodeName_written step.id step.description
  refine Reads.decode (((required_reads ?_ hname).map _).seq
    (withDefault_reads ?_ hsettings))
  all_goals simp

/-- The written form of the steps of a chain. -/
def ChainStep.listTree (steps : List ChainStep) : Tree :=
  .list (steps.map toTree)

theorem ChainStep.decode_listTree
    {steps : List ChainStep} (h : ∀ step ∈ steps, step.Normal) :
    Decoder.list decode (listTree steps).sorted = .ok steps :=
  Decoder.list_written fun step hstep => (h step hstep).decode_toTree

/- The key of the heads is sorted among the keys of the followers, and taken out
from among them. -/
theorem ChainGraph.Normal.decode_toTree
    {graph : ChainGraph} (h : graph.Normal) :
    decode graph.toTree.sorted = .ok graph := by
  have hheads := ChainStep.decode_listTree h.heads
  have hfollowers := Decoder.fields_map_written fun follower hfollower =>
    ChainStep.decode_listTree (h.followers follower hfollower)
  have hascending := (Tree.ascending_map_snd
    fun steps => (ChainStep.listTree steps).sorted).mpr h.ascending
  have hkeys : ∀ field ∈ graph.followers.map (fun follower =>
      (follower.1, (ChainStep.listTree follower.2).sorted)),
      field.1 ≠ headsKey := by
    intro field hfield
    obtain ⟨follower, hfollower, rfl⟩ := List.mem_map.mp hfield
    exact h.keys follower hfollower
  have hsorted : graph.toTree.sorted = .map (Tree.sortFields
      ((headsKey, (ChainStep.listTree graph.heads).sorted) ::
        graph.followers.map fun follower =>
          (follower.1, (ChainStep.listTree follower.2).sorted))) := by
    rw [toTree, Tree.sorted, Tree.sortedFields_eq_map, List.map_cons,
      List.map_map]
    rfl
  rw [hsorted, decode, Tree.filter_sortFields_cons hascending hkeys,
    hfollowers, Tree.lookup_sortFields_cons hkeys]
  change (Decoder.list ChainStep.decode
    (ChainStep.listTree graph.heads).sorted >>= _) = _
  rw [hheads]
  rfl

theorem Workflow.Normal.decode_toTree
    {w : Workflow} (h : w.Normal) : decode w.toTree.sorted = .ok w := by
  have hmain := h.main.decode_toTree
  have hsubscribers := Decoder.fields_written h.ascending
    fun subscriber hsubscriber =>
      (h.subscribers subscriber hsubscriber).decode_toTree
  refine Reads.decode (((withDefault_reads ?_ hmain).map _).seq
    (withDefault_reads ?_ hsubscribers))
  all_goals simp

/-! ## Round trips -/

/-- Flows and workflows that are written down and read again are unchanged, and
what is written is a document: any flow, and any workflow that was read from a
document. -/
theorem decode_written :
    (∀ flow : Flow, flow.toTree.sorted.Ordered ∧
      Flow.decode flow.toTree.sorted = .ok flow) ∧
    ∀ (tree : Tree) (w : Workflow), tree.Ordered →
      Workflow.decode tree = .ok w →
      w.toTree.sorted.Ordered ∧ Workflow.decode w.toTree.sorted = .ok w := by
  refine ⟨fun flow => ⟨Tree.sorted_ordered _, flow.decode_toTree⟩, ?_⟩
  intro tree w htree hread
  have hnormal := Workflow.decode_ensures tree w htree hread
  exact ⟨Tree.sorted_ordered _, hnormal.decode_toTree⟩

/-- A document with an alias, a null description, a step that is written as a
list and a group of conditions of no known form. -/
def patchedTree : Tree :=
  .map [
    ("stepGraph", .map [
      ("fetch", .list [
        .list [.map [("id", .text "store")], .map [("loopLabel", .null)]]]),
      ("initial", .list [
        .map [
          ("config", .map [
            ("loopType", .text "dountil"),
            ("when",
              .map [("odd", .list [.null, .int 7]), ("ref", .bool true)])]),
          ("step", .map [("description", .null), ("id", .text "fetch")])]])])]

/-- The workflow of this document. -/
def patchedWorkflow : Workflow where
  main := {
    heads := [⟨"fetch", none,
      some (.map [("odd", .list [.null, .int 7]), ("ref", .bool true)]),
      some .untilKind, none⟩]
    followers := [("fetch", [⟨"store", none, none, none, none⟩])] }
  subscribers := []

theorem patchedWorkflow_written :
    patchedTree.Ordered ∧ Workflow.decode patchedTree = .ok patchedWorkflow ∧
    Workflow.decode patchedWorkflow.toTree.sorted = .ok patchedWorkflow := by
  have hsorted : patchedTree.sorted = patchedTree := rfl
  have hordered : patchedTree.Ordered := hsorted ▸ Tree.sorted_ordered _
  have hread : Workflow.decode patchedTree = .ok patchedWorkflow := rfl
  exact ⟨hordered, hread, (decode_written.2 _ _ hordered hread).2⟩

end Flowchart
