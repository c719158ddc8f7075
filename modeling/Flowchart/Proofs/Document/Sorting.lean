import Flowchart.Proofs.Document.Ordered

/-!
# Sorted fields

Sorting the fields of a map does not change what is found under a key: it is
what the last of the pairs with this key holds.  Fields that already ascend
stay as they are, and so does every ordered tree.
-/

namespace Flowchart

namespace Tree

/-! ## Looking up fields -/

theorem lookup_cons (field : String × α) (fields : List (String × α))
    (name : String) :
    (field :: fields).lookup name =
      if name = field.1 then some field.2 else fields.lookup name := by
  obtain ⟨key, value⟩ := field
  by_cases h : name = key
  · simp [h]
  · simp [List.lookup_cons, h, beq_eq_false_iff_ne.mpr h]

theorem mem_of_lookup
    {fields : List (String × α)} {name : String} {value : α}
    (h : fields.lookup name = some value) : (name, value) ∈ fields := by
  obtain ⟨before, behind, rfl, -⟩ := List.lookup_eq_some_iff.mp h
  simp

theorem lookup_optionalField
    (key : String) (value : Option Tree) (name : String) :
    (optionalField key value).lookup name =
      if name = key then value else none := by
  cases value with
  | none => simp [optionalField]
  | some value => exact lookup_cons (key, value) [] name

theorem reverse_optionalField (key : String) (value : Option Tree) :
    (optionalField key value).reverse = optionalField key value := by
  cases value <;> rfl

theorem lookup_insertField
    (key name : String) (value : α) (fields : List (String × α)) :
    (insertField key value fields).lookup name =
      if name = key then some value else fields.lookup name := by
  induction fields with
  | nil => exact lookup_cons (key, value) [] name
  | cons field fields ih =>
      unfold insertField
      split
      · exact lookup_cons (key, value) _ name
      · split
        · next heq =>
            rw [lookup_cons, lookup_cons]
            by_cases hname : name = key
            · rw [if_pos hname, if_pos hname]
            · rw [if_neg hname, if_neg hname, if_neg (heq ▸ hname)]
        · next hne =>
            rw [lookup_cons, ih, lookup_cons]
            by_cases hname : name = key
            · rw [if_neg (hname ▸ hne), if_pos hname, if_pos hname]
            · rw [if_neg hname, if_neg hname]

/-- What sorted pairs hold under a key is what the last pair with this key
holds. -/
theorem lookup_sortFields (pairs : List (String × α)) (name : String) :
    (sortFields pairs).lookup name = pairs.reverse.lookup name := by
  unfold sortFields
  rw [← List.foldr_reverse]
  induction pairs.reverse with
  | nil => rfl
  | cons pair pairs ih =>
      rw [List.foldr_cons, lookup_insertField, ih, lookup_cons]

theorem lookup_sortFields_append
    (others fields : List (String × α)) (name : String) :
    (sortFields (others ++ fields)).lookup name =
      (fields.reverse.lookup name).or (others.reverse.lookup name) := by
  rw [lookup_sortFields, List.reverse_append, List.lookup_append]

theorem sortedList_eq_map (items : List Tree) :
    sortedList items = items.map sorted := by
  induction items with
  | nil => rfl
  | cons item items ih => rw [sortedList, ih, List.map_cons]

theorem sortedFields_eq_map (fields : List (String × Tree)) :
    sortedFields fields =
      fields.map fun field => (field.1, field.2.sorted) := by
  induction fields with
  | nil => rfl
  | cons field fields ih => rw [sortedFields, ih, List.map_cons]

theorem lookup_map_snd
    (f : α → β) (fields : List (String × α)) (name : String) :
    (fields.map fun field => (field.1, f field.2)).lookup name =
      (fields.lookup name).map f := by
  induction fields with
  | nil => rfl
  | cons field fields ih =>
      rw [List.map_cons, List.lookup_cons, List.lookup_cons, ih]
      split <;> rfl

/-- The value that a map of these fields has under a name once it is sorted. -/
def sortedValue (fields : List (String × Tree)) (name : String) : Option Tree :=
  (fields.reverse.lookup name).map sorted

@[simp]
theorem sortedValue_nil (name : String) : sortedValue [] name = none :=
  rfl

@[simp]
theorem sortedValue_append
    (fields fields' : List (String × Tree)) (name : String) :
    sortedValue (fields ++ fields') name =
      (sortedValue fields' name).or (sortedValue fields name) := by
  simp only [sortedValue, List.reverse_append, List.lookup_append]
  exact Option.map_or

@[simp]
theorem sortedValue_cons
    (key : String) (value : Tree) (fields : List (String × Tree))
    (name : String) :
    sortedValue ((key, value) :: fields) name =
      (sortedValue fields name).or
        (if name = key then some value.sorted else none) := by
  rw [← List.singleton_append, sortedValue_append]
  congr 1
  rw [sortedValue, List.reverse_singleton, lookup_cons]
  by_cases h : name = key <;> simp [h]

@[simp]
theorem sortedValue_optionalField
    (key : String) (value : Option Tree) (name : String) :
    sortedValue (optionalField key value) name =
      if name = key then value.map sorted else none := by
  cases value <;> simp [optionalField]

theorem lookup_sorted (fields : List (String × Tree)) (name : String) :
    (sortFields (sortedFields fields)).lookup name =
      sortedValue fields name := by
  rw [lookup_sortFields, sortedFields_eq_map, ← List.map_reverse,
    lookup_map_snd, sortedValue]

/-! ## Sorting what is sorted -/

@[simp]
theorem sorted_text (s : String) : (Tree.text s).sorted = .text s :=
  rfl

@[simp]
theorem sorted_bool (b : Bool) : (Tree.bool b).sorted = .bool b :=
  rfl

@[simp]
theorem sorted_int (n : Int) : (Tree.int n).sorted = .int n :=
  rfl

theorem insertField_perm
    {key : String} {value : α} {fields : List (String × α)}
    (h : key ∉ fields.map Prod.fst) :
    (insertField key value fields).Perm ((key, value) :: fields) := by
  induction fields with
  | nil => exact .refl _
  | cons field fields ih =>
      rw [List.map_cons, List.mem_cons, not_or] at h
      obtain ⟨hne, hrest⟩ := h
      rw [insertField, if_neg hne]
      split
      · exact .refl _
      · exact ((ih hrest).cons field).trans (.swap (key, value) field fields)

/-- Pairs with different keys are only put into another order. -/
theorem sortFields_perm
    {pairs : List (String × α)} (h : (pairs.map Prod.fst).Nodup) :
    (sortFields pairs).Perm pairs := by
  unfold sortFields
  induction pairs using List.reverseRecOn with
  | nil => exact .refl _
  | append_singleton pairs pair ih =>
      rw [List.map_append, List.map_singleton, List.nodup_append_comm,
        List.singleton_append, List.nodup_cons] at h
      have hsorted := ih h.2
      have hnew : pair.1 ∉ (sortFields pairs).map Prod.fst :=
        fun hmem => h.1 ((hsorted.map Prod.fst).mem_iff.mp hmem)
      rw [List.foldl_append]
      exact (insertField_perm hnew).trans
        ((hsorted.cons pair).trans (List.perm_append_singleton pair pairs).symm)

theorem sortFields_ascending (pairs : List (String × α)) :
    Ascending (sortFields pairs) := by
  unfold sortFields
  induction pairs using List.reverseRecOn with
  | nil => exact .nil
  | append_singleton pairs pair ih =>
      rw [List.foldl_append]
      exact ih.insertField pair.1 pair.2

theorem Ascending.nodup_keys
    {fields : List (String × α)} (h : Ascending fields) :
    (fields.map Prod.fst).Nodup :=
  List.pairwise_map.mpr (h.imp ne_of_lt)

/-- There is one way to put fields into ascending order. -/
theorem Ascending.eq_of_perm
    {fields fields' : List (String × α)} (h : Ascending fields)
    (h' : Ascending fields') (hperm : fields.Perm fields') :
    fields = fields' :=
  hperm.eq_of_pairwise
    (fun _ _ _ _ hlt hgt => absurd hgt (lt_asymm hlt)) h h'

theorem Ascending.sortFields
    {fields : List (String × α)} (h : Ascending fields) :
    Tree.sortFields fields = fields :=
  (sortFields_ascending fields).eq_of_perm h (sortFields_perm h.nodup_keys)

theorem ascending_map_snd
    (f : α → β) {fields : List (String × α)} :
    Ascending (fields.map fun field => (field.1, f field.2)) ↔
      Ascending fields :=
  List.pairwise_map

theorem lookup_sortFields_cons
    {key : String} {value : α} {fields : List (String × α)}
    (hkey : ∀ field ∈ fields, field.1 ≠ key) :
    (Tree.sortFields ((key, value) :: fields)).lookup key = some value := by
  have hnone : fields.reverse.lookup key = none := by
    rw [List.lookup_eq_none_iff]
    intro field hfield
    simpa using (hkey field (List.mem_reverse.mp hfield)).symm
  rw [lookup_sortFields, List.reverse_cons, List.lookup_append, hnone,
    lookup_cons, if_pos rfl]
  rfl

/-- A field that is put before ascending fields can be taken out again. -/
theorem filter_sortFields_cons
    {key : String} {value : α} {fields : List (String × α)}
    (h : Ascending fields) (hkey : ∀ field ∈ fields, field.1 ≠ key) :
    (Tree.sortFields ((key, value) :: fields)).filter
      (fun field => field.1 != key) = fields := by
  have hnew : key ∉ fields.map Prod.fst := by
    simpa using fun value hmem => hkey (key, value) hmem rfl
  have hnodup : (((key, value) :: fields).map Prod.fst).Nodup :=
    List.nodup_cons.mpr ⟨hnew, h.nodup_keys⟩
  have hperm := (sortFields_perm hnodup).filter fun field => field.1 != key
  have hrest : fields.filter (fun field => field.1 != key) = fields :=
    List.filter_eq_self.mpr fun field hfield =>
      bne_iff_ne.mpr (hkey field hfield)
  rw [List.filter_cons_of_neg (by simp), hrest] at hperm
  exact Ascending.eq_of_perm
    ((sortFields_ascending ((key, value) :: fields)).filter _) h hperm

/-- Sorting does nothing to ordered trees. -/
theorem Ordered.sorted {tree : Tree} (h : tree.Ordered) :
    tree.sorted = tree := by
  induction h with
  | @list items _ ih =>
      have hitems : items.map Tree.sorted = items :=
        (List.map_congr_left ih).trans (List.map_id' items)
      rw [Tree.sorted, sortedList_eq_map, hitems]
  | @map fields hascending _ ih =>
      have hfields :
          (fields.map fun field => (field.1, field.2.sorted)) = fields := by
        refine (List.map_congr_left ?_).trans (List.map_id' fields)
        intro field hfield
        rw [ih field hfield]
      rw [Tree.sorted, sortedFields_eq_map, hfields, ofFields,
        hascending.sortFields]
  | _ => rfl

mutual

theorem sorted_ordered : (tree : Tree) → tree.sorted.Ordered
  | .null => .null
  | .bool _ => .bool
  | .number _ => .number
  | .text _ => .text
  | .list items => .list (sortedList_ordered items)
  | .map fields => ordered_ofFields (sortedFields_ordered fields)
termination_by structural tree => tree

theorem sortedList_ordered :
    (items : List Tree) → ∀ item ∈ sortedList items, item.Ordered
  | [], _, h => by cases h
  | first :: items, item, h => by
      rcases List.mem_cons.mp h with rfl | hrest
      · exact sorted_ordered first
      · exact sortedList_ordered items item hrest
termination_by structural items => items

theorem sortedFields_ordered :
    (fields : List (String × Tree)) →
      ∀ field ∈ sortedFields fields, field.2.Ordered
  | [], _, h => by cases h
  | (_, value) :: fields, field, h => by
      rcases List.mem_cons.mp h with rfl | hrest
      · exact sorted_ordered value
      · exact sortedFields_ordered fields field hrest
termination_by structural fields => fields

end

/-! ## Heights -/

theorem height_lt_of_mem_list
    {item : Tree} {items : List Tree} (h : item ∈ items) :
    item.height < (Tree.list items).height := by
  rw [height, Nat.lt_succ_iff]
  induction items with
  | nil => cases h
  | cons first items ih =>
      rw [heightList]
      rcases List.mem_cons.mp h with rfl | hrest
      · exact le_max_left _ _
      · exact (ih hrest).trans (le_max_right _ _)

theorem height_lt_of_lookup
    {name : String} {value : Tree} {fields : List (String × Tree)}
    (h : fields.lookup name = some value) :
    value.height < (Tree.map fields).height := by
  rw [height, Nat.lt_succ_iff]
  induction fields with
  | nil => cases h
  | cons field fields ih =>
      rw [heightFields]
      rw [List.lookup_cons] at h
      split at h
      · cases h
        exact le_max_left _ _
      · exact (ih h).trans (le_max_right _ _)

/-- A value of a map is lower than the map. -/
theorem height_lt_of_sortedValue
    {name : String} {value : Tree} {fields : List (String × Tree)}
    (h : sortedValue fields name = some value) :
    value.height < (Tree.map fields).sorted.height := by
  rw [sorted, ofFields]
  exact height_lt_of_lookup (by rw [lookup_sorted, h])

end Tree

end Flowchart
