import Flowchart.Condition.Group
import Flowchart.Proofs.Document.Sorting

/-!
# Conditions that are collected from a tree

Whatever the tree is, each condition that is read from it is an expression or a
comparison and has the kind that was asked for.  All conditions but the first
carry a conjunction: a tree that is a condition by itself gives only one, and
below a combinator each condition carries one.
-/

namespace Flowchart

namespace Condition

/-! ## Fields -/

theorem hasKey_eq_isSome (fields : List (String × Tree)) (key : String) :
    hasKey fields key = (fields.lookup key).isSome := by
  induction fields with
  | nil => rfl
  | cons field fields ih =>
      rw [Tree.lookup_cons]
      by_cases h : key = field.1
      · simp [hasKey, h]
      · rw [if_neg h, ← ih]
        simp [hasKey, Ne.symm h]

theorem collect_of_ref
    (kind : ConditionKind) (conjunction : Option Conjunction)
    {fields : List (String × Tree)} (h : hasKey fields "ref" = true) :
    collect kind conjunction (.map fields) =
      (ofReference? kind fields).toList.map
        (withConjunction · conjunction) := by
  unfold collect
  rw [if_pos h]

theorem collect_of_combinator
    (kind : ConditionKind) (conjunction : Option Conjunction)
    {fields : List (String × Tree)} (href : hasKey fields "ref" = false)
    (h : (hasKey fields "and" || hasKey fields "or" || hasKey fields "not") =
      true) :
    collect kind conjunction (.map fields) =
      collectUnder kind .and fields ++ collectUnder kind .or fields ++
        collectUnder kind .not fields := by
  unfold collect
  rw [href, if_neg Bool.false_ne_true, if_pos h]

/-- The conditions of what stands under a combinator. -/
def collectMember (kind : ConditionKind) (combinator : Conjunction) :
    Tree → List Condition
  | .list items => collectItems kind combinator items
  | group => collect kind (some combinator) group

theorem collectUnder_eq
    (kind : ConditionKind) (combinator : Conjunction)
    (fields : List (String × Tree)) :
    collectUnder kind combinator fields =
      ((fields.lookup combinator.word).map
        (collectMember kind combinator)).getD [] := by
  induction fields with
  | nil => rfl
  | cons field fields ih =>
      obtain ⟨key, value⟩ := field
      rw [Tree.lookup_cons]
      by_cases h : key = combinator.word
      · cases value <;> simp [collectUnder, collectMember, h]
      · cases value <;> simp [collectUnder, h, Ne.symm h, ih]

/-! ## What is read from any tree -/

/-- The condition is either an expression or a comparison. -/
def IsSingle (condition : Condition) : Prop :=
  (condition.rawExpression.isSome ∧ condition.reference = none ∧
    condition.comparison = none) ∨
  (condition.rawExpression = none ∧ condition.reference.isSome ∧
    condition.comparison.isSome)

/-- The condition is an expression or a comparison of the kind. -/
def IsOfKind (kind : ConditionKind) (condition : Condition) : Prop :=
  condition.kind = kind ∧ condition.IsSingle

theorem isOfKind_raw (kind : ConditionKind) (expression : String) :
    IsOfKind kind (raw kind expression) :=
  ⟨rfl, Or.inl ⟨rfl, rfl, rfl⟩⟩

theorem isOfKind_compare
    (kind : ConditionKind) (reference : Reference) (comparison : Comparison) :
    IsOfKind kind (compare kind reference comparison) :=
  ⟨rfl, Or.inr ⟨rfl, rfl, rfl⟩⟩

theorem isOfKind_of_ofField?
    {kind : ConditionKind} {key : String} {value : Tree}
    {condition : Condition} (h : ofField? kind key value = some condition) :
    IsOfKind kind condition := by
  obtain ⟨reference, -, rfl⟩ := Option.map_eq_some_iff.mp h
  exact isOfKind_compare kind _ _

theorem isOfKind_of_ofReference?
    {kind : ConditionKind} {fields : List (String × Tree)}
    {condition : Condition} (h : ofReference? kind fields = some condition) :
    IsOfKind kind condition := by
  simp only [ofReference?, Option.bind_eq_bind, Option.bind_eq_some_iff] at h
  obtain ⟨_, _, _, _, _, _, query, _, hquery⟩ := h
  split at hquery
  · obtain ⟨op, _, hcondition⟩ := Option.bind_eq_some_iff.mp hquery
    cases hcondition
    exact isOfKind_compare kind _ _
  · cases hquery

/-- What can be read under a combinator: one condition that carries it, or
conditions each of which carries a combinator of its own. -/
inductive IsRead (kind : ConditionKind) (outer : Option Conjunction) :
    List Condition → Prop
  | single {condition : Condition} (h : IsOfKind kind condition) :
      IsRead kind outer [condition.withConjunction outer]
  | several {conditions : List Condition}
      (h : ∀ condition ∈ conditions,
        IsOfKind kind condition ∧ condition.conjunction.isSome) :
      IsRead kind outer conditions

namespace IsRead

variable {kind : ConditionKind}

theorem ofOption {found : Option Condition}
    (h : ∀ condition, found = some condition → IsOfKind kind condition)
    (outer : Option Conjunction) :
    IsRead kind outer (found.toList.map (withConjunction · outer)) := by
  cases found with
  | none => exact several (by simp)
  | some condition => exact single (h condition rfl)

theorem isOfKind {outer : Option Conjunction} {conditions : List Condition}
    (h : IsRead kind outer conditions) :
    ∀ condition ∈ conditions, IsOfKind kind condition := by
  cases h with
  | @single condition h =>
      intro _ hmem
      rw [List.mem_singleton] at hmem
      subst hmem
      exact h
  | several h => exact fun condition hmem => (h condition hmem).1

theorem carries {combinator : Conjunction} {conditions : List Condition}
    (h : IsRead kind (some combinator) conditions) :
    ∀ condition ∈ conditions,
      IsOfKind kind condition ∧ condition.conjunction.isSome := by
  cases h with
  | @single condition h =>
      intro _ hmem
      rw [List.mem_singleton] at hmem
      subst hmem
      exact ⟨h, rfl⟩
  | several h => exact h

end IsRead

theorem collectItems_eq_flatMap
    (kind : ConditionKind) (combinator : Conjunction) (items : List Tree) :
    collectItems kind combinator items =
      items.flatMap (collect kind (some combinator)) := by
  induction items with
  | nil => rfl
  | cons item items ih => rw [collectItems, ih, List.flatMap_cons]

theorem collectMember_carries
    {kind : ConditionKind} {combinator : Conjunction} {value : Tree}
    (h : ∀ tree : Tree, tree.height ≤ value.height →
      IsRead kind (some combinator) (collect kind (some combinator) tree)) :
    ∀ condition ∈ collectMember kind combinator value,
      IsOfKind kind condition ∧ condition.conjunction.isSome := by
  cases value with
  | list items =>
      intro condition hmem
      rw [collectMember, collectItems_eq_flatMap, List.mem_flatMap] at hmem
      obtain ⟨item, hitem, hmem⟩ := hmem
      exact (h item (Tree.height_lt_of_mem_list hitem).le).carries _ hmem
  | _ => exact (h _ (Nat.le_refl _)).carries

theorem collect_isRead
    (kind : ConditionKind) (tree : Tree) (outer : Option Conjunction) :
    IsRead kind outer (collect kind outer tree) := by
  induction hheight : tree.height using Nat.strongRecOn
    generalizing tree outer with
  | ind height ih =>
      subst hheight
      cases tree with
      | text expression => exact .single (isOfKind_raw kind expression)
      | map fields =>
          have hunder : ∀ combinator,
              ∀ condition ∈ collectUnder kind combinator fields,
                IsOfKind kind condition ∧ condition.conjunction.isSome := by
            intro combinator
            rw [collectUnder_eq]
            cases hvalue : fields.lookup combinator.word with
            | none => simp
            | some value =>
                have hlt := Tree.height_lt_of_lookup hvalue
                exact collectMember_carries fun tree hle =>
                  ih tree.height (hle.trans_lt hlt) tree (some combinator) rfl
          unfold collect
          split
          · exact .ofOption (fun _ => isOfKind_of_ofReference?) outer
          · split
            · refine .several fun condition hmem => ?_
              rw [List.mem_append, List.mem_append] at hmem
              obtain (hand | hor) | hnot := hmem
              · exact hunder .and condition hand
              · exact hunder .or condition hor
              · exact hunder .not condition hnot
            · split
              · exact .ofOption (fun _ => isOfKind_of_ofField?) outer
              · exact .several (by simp)
      | _ => exact .several (by simp [collect])

theorem isOfKind_of_mem_ofGroup
    {kind : ConditionKind} {tree : Tree} {condition : Condition}
    (h : condition ∈ ofGroup kind tree) : IsOfKind kind condition := by
  have hread := (collect_isRead kind tree none).isOfKind
  unfold ofGroup at h
  split at h
  · cases h
  · next first rest hcollect =>
      rw [hcollect] at hread
      rcases List.mem_cons.mp h with rfl | hrest
      · exact hread first List.mem_cons_self
      · exact hread condition (List.mem_cons_of_mem first hrest)

theorem conjunction_eq_none_iff
    {kind : ConditionKind} {tree : Tree} {i : Nat} {condition : Condition}
    (h : (ofGroup kind tree)[i]? = some condition) :
    condition.conjunction = none ↔ i = 0 := by
  unfold ofGroup at h
  split at h
  · simp at h
  · next first rest hcollect =>
      cases i with
      | zero =>
          obtain rfl := Option.some.inj h
          exact ⟨fun _ => rfl, fun _ => rfl⟩
      | succ i =>
          have hmem : condition ∈ rest := List.mem_of_getElem? h
          have hread := collect_isRead kind tree none
          rw [hcollect] at hread
          cases hread with
          | single => cases hmem
          | several hseveral =>
              have hsome := (hseveral condition
                (List.mem_cons_of_mem first hmem)).2
              simpa using Option.isSome_iff_ne_none.mp hsome

end Condition

end Flowchart
