import Flowchart.Proofs.Condition.Collected

/-!
# Groups and their leaves

A group is a leaf or joins other groups by `and`, `or` and `not`.  It is written
as a tree, and what is read from this tree is one condition for each leaf, from
left to right.  Each condition but the first carries the innermost combinator
around its leaf; the combinators farther out leave no trace.
-/

namespace Flowchart

namespace Condition

/-! ## Leaves -/

/-- The key of a field that compares what a step left at a path. -/
structure FieldKey where
  step : String
  path : String
  step_ne : step ≠ ""
  step_plain : ∀ c ∈ step.toList, c ≠ '.' ∧ Text.isBlank c = false
  path_begins : ∃ c ∈ path.toList.head?, Text.isBlank c = false
  path_line : '\n' ∉ path.toList

/-- The written form of a key. -/
def FieldKey.text (key : FieldKey) : String :=
  key.step ++ "." ++ key.path

/-- How a reference names its step. -/
inductive StepName where
  | plain (id : String)
  | record (id : String) (others : List (String × Tree))

/-- The id of the step. -/
def StepName.id : StepName → String
  | .plain id => id
  | .record id _ => id

/-- The written form of the name of a step. -/
def StepName.toTree : StepName → Tree
  | .plain id => .text id
  | .record id others => Tree.ofFields (others ++ [("id", .text id)])

/-- A group that joins nothing. -/
inductive Leaf where
  | raw (expression : String)
  | field (key : FieldKey) (value : Tree)
  | query (step : StepName) (path : Option String)
      (op : ComparisonOp) (hop : op ≠ .is) (value : Tree)
      (others : List (String × Tree))

namespace Leaf

/-- The map with the step and the path of a reference. -/
def referenceTree (step : StepName) (path : Option String) : Tree :=
  Tree.ofFields
    (("step", step.toTree) :: Tree.optionalField "path" (path.map .text))

/-- The written form of a leaf.  A query may stand among other fields. -/
def toTree : Leaf → Tree
  | .raw expression => .text expression
  | .field key value => .map [(key.text, value)]
  | .query step path op _ value others =>
    Tree.ofFields
      (others ++ [("ref", referenceTree step path),
        ("query", .map [("$" ++ op.word, value)])])

/-- The value is a truth value. -/
def isTruth : Tree → Bool
  | .bool _ => true
  | _ => false

/-- What a leaf says. -/
def condition (kind : ConditionKind) : Leaf → Condition
  | .raw expression => Condition.raw kind expression
  | .field key value =>
    compare kind ⟨key.step, key.path⟩
      ⟨if isTruth value then .is else .eq, valueText value⟩
  | .query step path op _ value _ =>
    compare kind ⟨step.id, path.getD ""⟩ ⟨op, valueText value⟩

end Leaf

/-! ## Groups -/

mutual

/-- A group of conditions. -/
inductive Group where
  | leaf (leaf : Leaf)
  | joined (ands ors nots : Members)

/-- What a group joins by one combinator: nothing, one group or a list. -/
inductive Members where
  | absent
  | one (group : Group)
  | many (groups : List Group)

end

mutual

/-- The written form of a group. -/
def Group.toTree : Group → Tree
  | .leaf leaf => leaf.toTree
  | .joined ands ors nots =>
    Tree.ofFields (Tree.optionalField "and" ands.toTree? ++
      Tree.optionalField "or" ors.toTree? ++
      Tree.optionalField "not" nots.toTree?)
termination_by structural group => group

/-- The value of the field of a combinator, if there is one. -/
def Members.toTree? : Members → Option Tree
  | .absent => none
  | .one group => some group.toTree
  | .many groups => some (.list (Group.toTrees groups))
termination_by structural members => members

/-- The written forms of several groups. -/
def Group.toTrees : List Group → List Tree
  | [] => []
  | group :: groups => group.toTree :: Group.toTrees groups
termination_by structural groups => groups

end

/-- A leaf with the combinators around it, from the outermost to the
innermost. -/
structure PlacedLeaf where
  enclosing : List Conjunction
  leaf : Leaf

/-- The same leaf with one more combinator around everything. -/
def PlacedLeaf.within (combinator : Conjunction) (placed : PlacedLeaf) :
    PlacedLeaf :=
  ⟨combinator :: placed.enclosing, placed.leaf⟩

mutual

/-- The leaves of a group from left to right. -/
def Group.leaves : Group → List PlacedLeaf
  | .leaf leaf => [⟨[], leaf⟩]
  | .joined ands ors nots =>
    ands.leaves.map (.within .and) ++ ors.leaves.map (.within .or) ++
      nots.leaves.map (.within .not)
termination_by structural group => group

/-- The leaves of what a combinator joins. -/
def Members.leaves : Members → List PlacedLeaf
  | .absent => []
  | .one group => group.leaves
  | .many groups => Group.leavesOf groups
termination_by structural members => members

/-- The leaves of several groups. -/
def Group.leavesOf : List Group → List PlacedLeaf
  | [] => []
  | group :: groups => group.leaves ++ Group.leavesOf groups
termination_by structural groups => groups

end

/-! ## Keys -/

namespace FieldKey

variable (key : FieldKey)

theorem toList_text :
    key.text.toList = key.step.toList ++ '.' :: key.path.toList := by
  simp [text]

/-- There is a point in the key, so it is none of the words with a meaning. -/
theorem text_ne {name : String} (h : '.' ∉ name.toList) : key.text ≠ name := by
  rintro rfl
  exact h (by simp [toList_text])

/-- A key is split at its first point. -/
theorem splitKey?_text : splitKey? key.text = some ⟨key.step, key.path⟩ := by
  have hplain : ∀ c ∈ key.step.toList, decide (c ≠ '.') = true :=
    fun c hc => decide_eq_true (key.step_plain c hc).1
  have hblank : key.step.toList.any Text.isBlank = false :=
    List.any_eq_false.mpr fun c hc => by simp [(key.step_plain c hc).2]
  have hstep : key.step.toList ≠ [] := by simpa using key.step_ne
  obtain ⟨c, hc, hbegins⟩ := key.path_begins
  obtain ⟨rest, hpath⟩ := List.head?_eq_some_iff.mp hc
  have hline : '\n' ∉ rest :=
    fun hmem => key.path_line (hpath ▸ List.mem_cons_of_mem c hmem)
  have htake : key.text.toList.takeWhile (· ≠ '.') = key.step.toList := by
    rw [toList_text, List.takeWhile_append_of_pos hplain]
    simp
  have hdrop : key.text.toList.dropWhile (· ≠ '.') = '.' :: c :: rest := by
    rw [toList_text, List.dropWhile_append_of_pos hplain, hpath]
    simp
  have hguard : (!key.step.toList.isEmpty &&
      !key.step.toList.any Text.isBlank && !Text.isBlank c &&
      !rest.contains '\n') = true := by
    simp [hstep, hblank, hbegins, hline]
  rw [splitKey?, htake, hdrop]
  refine (if_pos hguard).trans ?_
  rw [← hpath, String.ofList_toList, String.ofList_toList]

theorem ofField?_text (kind : ConditionKind) (value : Tree) :
    ofField? kind key.text value =
      some ((Leaf.field key value).condition kind) := by
  unfold ofField?
  rw [splitKey?_text]
  cases value <;> rfl

end FieldKey

/-! ## What is read from a leaf -/

theorem stepIdOf?_toTree (step : StepName) :
    stepIdOf? step.toTree = some step.id := by
  cases step with
  | plain id => rfl
  | record id others =>
      have hid : (Tree.sortFields (others ++ [("id", Tree.text id)])).lookup
          "id" = some (.text id) := by
        rw [Tree.lookup_sortFields_append]
        rfl
      rw [StepName.toTree, Tree.ofFields, stepIdOf?, Tree.get?, hid]
      rfl
      simp

theorem ofQueryKey?_word {op : ComparisonOp} (hop : op ≠ .is) :
    ComparisonOp.ofQueryKey? ("$" ++ op.word) = some op := by
  cases op with
  | is => exact absurd rfl hop
  | _ => decide

theorem get?_step_referenceTree (step : StepName) (path : Option String) :
    (Leaf.referenceTree step path).get? "step" = some step.toTree := by
  rw [Leaf.referenceTree, Tree.ofFields, Tree.get?, Tree.lookup_sortFields,
    List.reverse_cons, List.lookup_append, Tree.reverse_optionalField,
    Tree.lookup_optionalField, if_neg (by decide)]
  rfl

theorem get?_path_referenceTree (step : StepName) (path : Option String) :
    (Leaf.referenceTree step path).get? "path" = path.map .text := by
  rw [Leaf.referenceTree, Tree.ofFields, Tree.get?, Tree.lookup_sortFields,
    List.reverse_cons, List.lookup_append, Tree.reverse_optionalField,
    Tree.lookup_optionalField, if_pos rfl]
  cases path <;> rfl

theorem Leaf.collect_toTree
    (kind : ConditionKind) (conjunction : Option Conjunction) (leaf : Leaf) :
    collect kind conjunction leaf.toTree =
      [(leaf.condition kind).withConjunction conjunction] := by
  cases leaf with
  | raw expression => rfl
  | field key value =>
      have hword : ∀ name, '.' ∉ name.toList →
          hasKey [(key.text, value)] name = false := by
        intro name hname
        simp [hasKey, key.text_ne hname]
      rw [toTree, collect, hword "ref" (by decide), hword "and" (by decide),
        hword "or" (by decide), hword "not" (by decide), key.ofField?_text]
      rfl
  | query step path op hop value others =>
      have href : (Tree.sortFields (others ++
          [("ref", referenceTree step path),
            ("query", .map [("$" ++ op.word, value)])])).lookup "ref" =
          some (referenceTree step path) := by
        rw [Tree.lookup_sortFields_append]
        rfl
      have hquery : (Tree.sortFields (others ++
          [("ref", referenceTree step path),
            ("query", .map [("$" ++ op.word, value)])])).lookup "query" =
          some (.map [("$" ++ op.word, value)]) := by
        rw [Tree.lookup_sortFields_append]
        rfl
      have hpath : (((path.map Tree.text).bind Tree.text?).getD "") =
          path.getD "" := by
        cases path <;> rfl
      rw [toTree, Tree.ofFields, collect_of_ref kind conjunction
        (by rw [hasKey_eq_isSome, href]; rfl)]
      simp only [ofReference?, href, hquery, get?_step_referenceTree,
        get?_path_referenceTree, stepIdOf?_toTree, ofQueryKey?_word hop, hpath,
        Option.bind_eq_bind, Option.bind_some, Option.pure_def,
        Option.toList_some, List.map_singleton, condition]

/-! ## What is read from a group -/

/-- What is read from a leaf of a group that stands under a combinator. -/
def PlacedLeaf.condition
    (kind : ConditionKind) (outer : Option Conjunction) (placed : PlacedLeaf) :
    Condition :=
  (placed.leaf.condition kind).withConjunction
    (placed.enclosing.getLast?.or outer)

theorem PlacedLeaf.condition_within
    (kind : ConditionKind) (outer : Option Conjunction)
    (combinator : Conjunction) (placed : PlacedLeaf) :
    (placed.within combinator).condition kind outer =
      placed.condition kind (some combinator) := by
  unfold condition within
  rw [List.getLast?_cons]
  cases placed.enclosing.getLast? <;> rfl

theorem collectMember_toTree
    (kind : ConditionKind) (combinator : Conjunction) (group : Group) :
    collectMember kind combinator group.toTree =
      collect kind (some combinator) group.toTree := by
  cases group with
  | leaf leaf => cases leaf <;> rfl
  | joined ands ors nots => rfl

/-- The fields of a group that joins other groups. -/
def combinatorFields (ands ors nots : Option Tree) : List (String × Tree) :=
  Tree.sortFields (Tree.optionalField "and" ands ++
    Tree.optionalField "or" ors ++ Tree.optionalField "not" nots)

theorem lookup_combinatorFields
    (ands ors nots : Option Tree) (name : String) :
    (combinatorFields ands ors nots).lookup name =
      (if name = "not" then nots else none).or
        ((if name = "or" then ors else none).or
          (if name = "and" then ands else none)) := by
  rw [combinatorFields, Tree.lookup_sortFields, List.reverse_append,
    List.reverse_append, Tree.reverse_optionalField, Tree.reverse_optionalField,
    Tree.reverse_optionalField, List.lookup_append, List.lookup_append,
    Tree.lookup_optionalField, Tree.lookup_optionalField,
    Tree.lookup_optionalField]

theorem collect_combinatorFields
    (kind : ConditionKind) (outer : Option Conjunction)
    (ands ors nots : Option Tree) :
    collect kind outer (.map (combinatorFields ands ors nots)) =
      (ands.map (collectMember kind .and)).getD [] ++
        (ors.map (collectMember kind .or)).getD [] ++
        (nots.map (collectMember kind .not)).getD [] := by
  have hunder : ∀ combinator value,
      (combinatorFields ands ors nots).lookup combinator.word = value →
      collectUnder kind combinator (combinatorFields ands ors nots) =
        (value.map (collectMember kind combinator)).getD [] := by
    rintro combinator _ rfl
    exact collectUnder_eq kind combinator _
  have href : hasKey (combinatorFields ands ors nots) "ref" = false := by
    simp [hasKey_eq_isSome, lookup_combinatorFields]
  have hand : (combinatorFields ands ors nots).lookup "and" = ands := by
    simp [lookup_combinatorFields]
  have hor : (combinatorFields ands ors nots).lookup "or" = ors := by
    simp [lookup_combinatorFields]
  have hnot : (combinatorFields ands ors nots).lookup "not" = nots := by
    simp [lookup_combinatorFields]
  rw [← hunder .and ands hand, ← hunder .or ors hor, ← hunder .not nots hnot]
  by_cases hsome : (hasKey (combinatorFields ands ors nots) "and" ||
      hasKey (combinatorFields ands ors nots) "or" ||
      hasKey (combinatorFields ands ors nots) "not") = true
  · exact collect_of_combinator kind outer href hsome
  · -- A map without fields is no field that compares something either.
    simp only [hasKey_eq_isSome, hand, hor, hnot, Bool.or_eq_true, not_or,
      Bool.not_eq_true, Option.isSome_eq_false_iff, Option.isNone_iff_eq_none]
      at hsome
    obtain ⟨⟨rfl, rfl⟩, rfl⟩ := hsome
    rfl

mutual

/-- From a group one condition is read for each leaf. -/
theorem Group.collect_toTree (kind : ConditionKind) :
    (group : Group) → (outer : Option Conjunction) →
      collect kind outer group.toTree =
        group.leaves.map (PlacedLeaf.condition kind outer)
  | .leaf leaf, outer => leaf.collect_toTree kind outer
  | .joined ands ors nots, outer => by
      have hwithin : ∀ (combinator : Conjunction) (placed : List PlacedLeaf),
          (placed.map (.within combinator)).map
              (PlacedLeaf.condition kind outer) =
            placed.map (PlacedLeaf.condition kind (some combinator)) := by
        intro combinator placed
        rw [List.map_map]
        exact List.map_congr_left fun leaf _ =>
          leaf.condition_within kind outer combinator
      rw [Group.leaves, List.map_append, List.map_append, hwithin, hwithin,
        hwithin, ← Members.collect_toTree? kind ands,
        ← Members.collect_toTree? kind ors, ← Members.collect_toTree? kind nots]
      exact collect_combinatorFields kind outer _ _ _
termination_by structural group => group

theorem Members.collect_toTree? (kind : ConditionKind) :
    (members : Members) → (combinator : Conjunction) →
      (members.toTree?.map (collectMember kind combinator)).getD [] =
        members.leaves.map (PlacedLeaf.condition kind (some combinator))
  | .absent, _ => rfl
  | .one group, combinator =>
      (collectMember_toTree kind combinator group).trans
        (Group.collect_toTree kind group (some combinator))
  | .many groups, combinator =>
      Group.collectItems_toTrees kind groups combinator
termination_by structural members => members

theorem Group.collectItems_toTrees (kind : ConditionKind) :
    (groups : List Group) → (combinator : Conjunction) →
      collectItems kind combinator (Group.toTrees groups) =
        (Group.leavesOf groups).map
          (PlacedLeaf.condition kind (some combinator))
  | [], _ => rfl
  | group :: groups, combinator => by
      rw [Group.toTrees, collectItems,
        Group.collect_toTree kind group (some combinator),
        Group.collectItems_toTrees kind groups combinator, Group.leavesOf,
        List.map_append]
termination_by structural groups => groups

end

theorem ofGroup_toTree (kind : ConditionKind) (group : Group) :
    ofGroup kind group.toTree =
      group.leaves.mapIdx fun i placed =>
        (placed.leaf.condition kind).withConjunction
          (if i = 0 then none else placed.enclosing.getLast?) := by
  rw [ofGroup, group.collect_toTree kind none]
  cases group.leaves with
  | nil => rfl
  | cons first rest =>
      rw [List.map_cons, List.mapIdx_cons]
      refine congrArg (List.cons _) (List.ext_getElem (by simp) fun i _ _ => ?_)
      simp [PlacedLeaf.condition]

/-- From any tree conditions of one kind are read, each of them an expression or
a comparison, and all but the first carry a conjunction.  From a group one
condition is read for each leaf, and all but the first carry the innermost
combinator around the leaf. -/
theorem ofGroup_lists_leaves (kind : ConditionKind) :
    (∀ tree,
      (∀ condition ∈ ofGroup kind tree,
        condition.kind = kind ∧ condition.IsSingle) ∧
      ∀ i condition, (ofGroup kind tree)[i]? = some condition →
        (condition.conjunction = none ↔ i = 0)) ∧
    ∀ group : Group, ofGroup kind group.toTree =
      group.leaves.mapIdx fun i placed =>
        (placed.leaf.condition kind).withConjunction
          (if i = 0 then none else placed.enclosing.getLast?) :=
  ⟨fun _ => ⟨fun _ => isOfKind_of_mem_ofGroup,
      fun _ _ => conjunction_eq_none_iff⟩,
    ofGroup_toTree kind⟩

/-- A key with a point in the path. -/
def countKey : FieldKey where
  step := "scan"
  path := "count.total"
  step_ne := by decide
  step_plain := by simp [Text.isBlank]
  path_begins := ⟨'c', rfl, by decide⟩
  path_line := by decide

/-- A comparison, and behind it a query under `or` and an expression under
`not`. -/
def gateGroup : Group :=
  .joined
    (.many
      [.leaf (.field countKey (.text "3")),
        .joined .absent
          (.one (.leaf (.query (.record "trigger" []) (some "tags") .inList
            (by decide) (.list [.text "a", .text "b"]) [])))
          (.one (.leaf (.raw "late")))])
    .absent .absent

theorem gateGroup_lists_leaves :
    (∃ condition ∈ ofGroup .whenKind gateGroup.toTree,
      condition.kind = .whenKind ∧ condition.IsSingle) ∧
    (∃ condition, (ofGroup .whenKind gateGroup.toTree)[1]? = some condition ∧
      condition.conjunction ≠ none) ∧
    ofGroup .whenKind gateGroup.toTree =
      [⟨.whenKind, some ⟨"scan", "count.total"⟩, some ⟨.eq, "3"⟩, none, none⟩,
        ⟨.whenKind, some ⟨"trigger", "tags"⟩, some ⟨.inList, "a, b"⟩, none,
          some .or⟩,
        ⟨.whenKind, none, none, some "late", some .not⟩] := by
  have hgate := (ofGroup_lists_leaves .whenKind).2 gateGroup
  have hlist : ofGroup .whenKind gateGroup.toTree =
      [⟨.whenKind, some ⟨"scan", "count.total"⟩, some ⟨.eq, "3"⟩, none, none⟩,
        ⟨.whenKind, some ⟨"trigger", "tags"⟩, some ⟨.inList, "a, b"⟩, none,
          some .or⟩,
        ⟨.whenKind, none, none, some "late", some .not⟩] :=
    hgate.trans rfl
  obtain ⟨hkind, hfirst⟩ :=
    (ofGroup_lists_leaves .whenKind).1 gateGroup.toTree
  rw [hlist] at hkind hfirst ⊢
  refine ⟨⟨_, List.mem_cons_self, hkind _ List.mem_cons_self⟩,
    ⟨_, rfl, fun hnone => ?_⟩, rfl⟩
  exact absurd ((hfirst 1 _ rfl).mp hnone) (by decide)

end Condition

end Flowchart
