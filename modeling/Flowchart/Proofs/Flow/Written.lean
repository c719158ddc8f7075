import Flowchart.Flow.Decode
import Flowchart.Flow.Encode
import Flowchart.Proofs.Document.Records

/-!
# Reading written flows

A flow that is written down and read again is the same flow, however deep its
branches and nested flows are.
-/

namespace Flowchart

open RecordDecoder

/-! ## Words and texts -/

theorem ConditionKind.lookup_word (kind : ConditionKind) :
    words.lookup kind.word = some kind := by
  cases kind <;> decide

theorem Conjunction.lookup_word (conjunction : Conjunction) :
    words.lookup conjunction.word = some conjunction := by
  cases conjunction <;> decide

theorem ComparisonOp.lookup_word (op : ComparisonOp) :
    words.lookup op.word = some op := by
  cases op <;> decide

theorem LoopKind.lookup_word (kind : LoopKind) :
    words.lookup kind.word = some kind := by
  cases kind <;> decide

theorem EntryType.ofWord?_word (type : EntryType) :
    ofWord? type.word = some type := by
  cases type <;> decide

theorem requiredText_reads
    {values : String → Option Tree} {name text : String}
    (hname : values name = some (.text text)) :
    (required name Decoder.text).Reads values text :=
  required_reads hname rfl

theorem optionalText_reads
    {values : String → Option Tree} {name : String} {text? : Option String}
    (hname : values name = text?.map .text) :
    (optional name Decoder.text).Reads values text? :=
  optional_reads hname fun _ _ => ⟨Tree.noConfusion, rfl⟩

/-! ## Conditions -/

theorem Reference.decode_toTree (reference : Reference) :
    decode reference.toTree.sorted = .ok reference := by
  refine Reads.decode (((requiredText_reads ?_).map _).seq
    (requiredText_reads ?_))
  · simp
  · simp

theorem Comparison.decode_toTree (comparison : Comparison) :
    decode comparison.toTree.sorted = .ok comparison := by
  have hop := Decoder.oneOf_written comparison.op.lookup_word true
  refine Reads.decode (((required_reads ?_ hop).map _).seq
    (requiredText_reads ?_))
  · simp
  · simp

theorem Condition.decode_toTree (condition : Condition) :
    decode condition.toTree.sorted = .ok condition := by
  have hkind := Decoder.oneOf_written condition.kind.lookup_word true
  have hreference : ∀ reference ∈ condition.reference,
      reference.toTree.sorted ≠ .null ∧
      Reference.decode reference.toTree.sorted = .ok reference :=
    fun reference _ => ⟨Tree.noConfusion, reference.decode_toTree⟩
  have hcomparison : ∀ comparison ∈ condition.comparison,
      comparison.toTree.sorted ≠ .null ∧
      Comparison.decode comparison.toTree.sorted = .ok comparison :=
    fun comparison _ => ⟨Tree.noConfusion, comparison.decode_toTree⟩
  have hconjunction : ∀ conjunction ∈ condition.conjunction,
      Tree.text conjunction.word ≠ .null ∧
      Decoder.oneOf Conjunction.words true (.text conjunction.word) =
        .ok conjunction :=
    fun conjunction _ =>
      ⟨Tree.noConfusion, Decoder.oneOf_written conjunction.lookup_word true⟩
  refine Reads.decode (((((required_reads ?_ hkind).map _).seq
    (optional_reads ?_ hreference)).seq (optional_reads ?_ hcomparison)).seq
    (optionalText_reads ?_) |>.seq (optional_reads ?_ hconjunction))
  all_goals simp [Function.comp_def]

theorem ForeachOptions.decode_toTree (options : ForeachOptions) :
    decode options.toTree.sorted = .ok options := by
  refine Reads.decode ((required_reads ?_ (Decoder.word32_written _)).map _)
  simp

theorem ExitCondition.decode_toTree (exit : ExitCondition) :
    decode exit.toTree.sorted = .ok exit := by
  refine Reads.decode (((requiredText_reads ?_).map _).seq
    (requiredText_reads ?_))
  · simp
  · simp

/-! ## Entries -/

namespace Entry

theorem flowTrees_eq_map (flow : List Entry) :
    flowTrees flow = flow.map toTree := by
  induction flow with
  | nil => rfl
  | cons e flow ih => rw [flowTrees, ih, List.map_cons]

theorem branchTrees_eq_map (branches : List (List Entry)) :
    branchTrees branches = branches.map Flow.toTree := by
  induction branches with
  | nil => rfl
  | cons branch branches ih => rw [branchTrees, ih, List.map_cons, Flow.toTree]

theorem stepFields_eq (s : Step Entry) :
    stepFields s =
      [("id", .text s.id)] ++
      Tree.optionalField "description" (s.description.map .text) ++
      [("isWorkflow", .bool s.isWorkflow)] ++
      Tree.optionalField "nestedFlow" (s.nestedFlow.map Flow.toTree) ++
      Tree.optionalField "mapConfig" (s.mapConfig.map .text) := by
  obtain ⟨id, description, isWorkflow, nestedFlow, mapConfig⟩ := s
  cases nestedFlow <;> rfl

/-- The flows that stand directly in an entry. -/
def flows : Entry → List (List Entry)
  | .step s | .foreach s _ | .loop s _ _ => s.nestedFlow.toList
  | .parallel branches | .conditional branches _ => branches
  | .sleep .. | .sleepUntil .. | .waitForEvent .. => []

/-- The flow is read back by this decoder. -/
def ReadBack (flow : Decoder (List Entry)) (sub : List Entry) : Prop :=
  flow (Flow.toTree sub).sorted = .ok sub

variable {flow : Decoder (List Entry)}

theorem step_reads
    {s : Step Entry} {values : String → Option Tree}
    (hvalues : ∀ name, name ≠ "type" →
      values name = Tree.sortedValue (stepFields s) name)
    (hflow : ∀ sub ∈ s.nestedFlow, ReadBack flow sub) :
    (Step.record flow).Reads values s := by
  have hnested : ∀ sub ∈ s.nestedFlow, (Flow.toTree sub).sorted ≠ .null ∧
      flow (Flow.toTree sub).sorted = .ok sub :=
    fun sub hsub => ⟨Tree.noConfusion, hflow sub hsub⟩
  have hworkflow : Decoder.bool (.bool s.isWorkflow) = .ok s.isWorkflow := rfl
  refine (((((requiredText_reads ?_).map _).seq (optionalText_reads ?_)).seq
    (withDefault_reads ?_ hworkflow)).seq (optional_reads ?_ hnested)).seq
    (optionalText_reads ?_)
  all_goals
    rw [hvalues _ (by decide), stepFields_eq]
    simp [Function.comp_def]

theorem step_decode
    {s : Step Entry} (hflow : ∀ sub ∈ s.nestedFlow, ReadBack flow sub) :
    (Step.record flow).decode (Tree.map (stepFields s)).sorted = .ok s :=
  Reads.decode (step_reads (fun _ _ => rfl) hflow)

theorem branches_decode
    {branches : List (List Entry)} (h : ∀ sub ∈ branches, ReadBack flow sub) :
    Decoder.list flow (Tree.list (branchTrees branches)).sorted =
      .ok branches := by
  rw [branchTrees_eq_map]
  exact Decoder.list_written h

/-- An entry is read back once the flows in it are. -/
theorem record_reads
    {e : Entry} {fields : List (String × Tree)}
    (he : e.toTree = .map fields) (hflow : ∀ sub ∈ e.flows, ReadBack flow sub) :
    (record flow e.type).Reads (Tree.sortedValue fields) e := by
  cases e with
  | step s =>
      cases he
      refine (step_reads ?_ (by simpa [flows] using hflow)).map _
      intro name hname
      simp [EntryType.typeField, hname]
  | «foreach» s options =>
      cases he
      have hoptions : ∀ options' ∈ options, options'.toTree.sorted ≠ .null ∧
          ForeachOptions.decode options'.toTree.sorted = .ok options' :=
        fun options' _ => ⟨Tree.noConfusion, options'.decode_toTree⟩
      have hstep := step_decode (s := s) (by simpa [flows] using hflow)
      refine ((required_reads ?_ hstep).map _).seq (optional_reads ?_ hoptions)
      all_goals simp [EntryType.typeField, Function.comp_def]
  | sleep id duration =>
      cases he
      refine ((requiredText_reads ?_).map _).seq
        (required_reads ?_ (Decoder.word64_written duration))
      all_goals simp [EntryType.typeField]
  | sleepUntil id date =>
      cases he
      refine ((requiredText_reads ?_).map _).seq (requiredText_reads ?_)
      all_goals simp [EntryType.typeField]
  | waitForEvent id event description =>
      cases he
      refine (((requiredText_reads ?_).map _).seq (requiredText_reads ?_)).seq
        (optionalText_reads ?_)
      all_goals simp [EntryType.typeField, Function.comp_def]
  | loop s exit kind =>
      cases he
      have hstep := step_decode (s := s) (by simpa [flows] using hflow)
      have hkind := Decoder.oneOf_written kind.lookup_word true
      refine (((required_reads ?_ hstep).map _).seq
        (required_reads ?_ exit.decode_toTree)).seq (required_reads ?_ hkind)
      all_goals simp [EntryType.typeField]
  | parallel branches =>
      cases he
      have hbranches := branches_decode (show ∀ sub ∈ branches, _ from hflow)
      refine (required_reads ?_ hbranches).map _
      simp [EntryType.typeField]
  | conditional branches conditions =>
      cases he
      have hbranches := branches_decode (show ∀ sub ∈ branches, _ from hflow)
      have hconditions :=
        Decoder.list_written fun condition (_ : condition ∈ conditions) =>
          condition.decode_toTree
      refine ((required_reads ?_ hbranches).map _).seq
        (required_reads ?_ hconditions)
      all_goals simp [EntryType.typeField]

theorem exists_toTree_eq_map (e : Entry) :
    ∃ fields, e.toTree = .map fields := by
  cases e <;> exact ⟨_, rfl⟩

theorem type_written
    {e : Entry} {fields : List (String × Tree)} (he : e.toTree = .map fields) :
    Tree.sortedValue fields "type" = some (.text e.type.word) := by
  cases e <;> cases he <;> simp [EntryType.typeField, stepFields_eq, type]

theorem decodeType_written (inside : Bool) (type : EntryType) :
    decodeType inside (some (.text type.word)) = .ok type := by
  cases inside <;>
    simp [decodeType, EntryType.decodeWordOrNumber, EntryType.decodeWord,
      EntryType.ofWord?_word]

theorem decodeWith_toTree
    (inside : Bool) {e : Entry} (hflow : ∀ sub ∈ e.flows, ReadBack flow sub) :
    decodeWith inside flow e.toTree.sorted = .ok e := by
  obtain ⟨fields, he⟩ := e.exists_toTree_eq_map
  have hread := (record_reads he hflow).decode
  rw [he, Tree.sorted, Tree.ofFields, decodeWith, Tree.lookup_sorted,
    type_written he, decodeType_written]
  exact hread

/-! ## Nested flows -/

theorem height_lt_flow
    {sub : List Entry} {e : Entry} (h : e ∈ sub) :
    e.toTree.sorted.height < (Flow.toTree sub).sorted.height := by
  rw [Flow.toTree, Tree.sorted, Tree.sortedList_eq_map, flowTrees_eq_map]
  exact Tree.height_lt_of_mem_list
    (List.mem_map_of_mem (List.mem_map_of_mem h))

theorem height_lt_branches
    {sub : List Entry} {branches : List (List Entry)} (h : sub ∈ branches) :
    (Flow.toTree sub).sorted.height <
      (Tree.list (branchTrees branches)).sorted.height := by
  rw [Tree.sorted, Tree.sortedList_eq_map, branchTrees_eq_map]
  exact Tree.height_lt_of_mem_list
    (List.mem_map_of_mem (List.mem_map_of_mem h))

theorem height_lt_step
    {s : Step Entry} {sub : List Entry} (h : sub ∈ s.nestedFlow) :
    (Flow.toTree sub).sorted.height <
      (Tree.map (stepFields s)).sorted.height := by
  have hfield : Tree.sortedValue (stepFields s) "nestedFlow" =
      some (Flow.toTree sub).sorted := by
    simp [stepFields_eq, Option.mem_def.mp h]
  exact Tree.height_lt_of_sortedValue hfield

/-- A flow that stands in an entry is written lower than the entry. -/
theorem height_lt_of_mem_flows
    {e : Entry} {sub : List Entry} (h : sub ∈ e.flows) :
    (Flow.toTree sub).sorted.height < e.toTree.sorted.height := by
  cases e with
  | step s =>
      have hnested := Option.mem_toList.mp h
      have hfield : Tree.sortedValue (EntryType.typeField .step :: stepFields s)
          "nestedFlow" = some (Flow.toTree sub).sorted := by
        simp [EntryType.typeField, stepFields_eq, Option.mem_def.mp hnested]
      exact Tree.height_lt_of_sortedValue hfield
  | «foreach» s options =>
      refine (height_lt_step (Option.mem_toList.mp h)).trans ?_
      refine Tree.height_lt_of_sortedValue (?_ : Tree.sortedValue _ "step" = _)
      simp [EntryType.typeField]
  | loop s exit kind =>
      refine (height_lt_step (Option.mem_toList.mp h)).trans ?_
      refine Tree.height_lt_of_sortedValue (?_ : Tree.sortedValue _ "step" = _)
      simp [EntryType.typeField]
  | parallel branches =>
      have hsub : sub ∈ branches := h
      refine (height_lt_branches hsub).trans ?_
      refine Tree.height_lt_of_sortedValue
        (?_ : Tree.sortedValue _ "branches" = _)
      simp [EntryType.typeField]
  | conditional branches conditions =>
      have hsub : sub ∈ branches := h
      refine (height_lt_branches hsub).trans ?_
      refine Tree.height_lt_of_sortedValue
        (?_ : Tree.sortedValue _ "branches" = _)
      simp [EntryType.typeField]
  | _ => cases h

theorem readBack_list
    {value : Decoder Entry} {sub : List Entry}
    (h : ∀ e ∈ sub, value e.toTree.sorted = .ok e) :
    ReadBack (.list value) sub := by
  rw [ReadBack, Flow.toTree, flowTrees_eq_map]
  exact Decoder.list_written h

/-- An entry that stands inside another one is read back, if the bound is not
below its height. -/
theorem decodeWithin_toTree
    {height : Nat} {e : Entry} (h : e.toTree.sorted.height ≤ height) :
    decodeWithin height e.toTree.sorted = .ok e := by
  induction height generalizing e with
  | zero =>
      obtain ⟨fields, he⟩ := e.exists_toTree_eq_map
      rw [he, Tree.sorted, Tree.ofFields, Tree.height] at h
      omega
  | succ height ih =>
      refine decodeWith_toTree true fun sub hsub => readBack_list ?_
      intro inner hinner
      have hsub := height_lt_of_mem_flows hsub
      have hinner := height_lt_flow hinner
      exact ih (by omega)

theorem decode_toTree (e : Entry) : decode e.toTree.sorted = .ok e := by
  refine decodeWith_toTree false fun sub hsub => readBack_list ?_
  intro inner hinner
  exact decodeWithin_toTree
    ((height_lt_flow hinner).trans (height_lt_of_mem_flows hsub)).le

end Entry

theorem Flow.decode_toTree (flow : Flow) :
    decode flow.toTree.sorted = .ok flow :=
  Entry.readBack_list fun e _ => e.decode_toTree

end Flowchart
