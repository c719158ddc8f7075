import Flowchart.Document.Reading
import Mathlib

/-!
# Ordered documents

In every document that is read, the fields of every map stand in ascending order
of their keys, whatever their order in the text is, and no key is repeated.
-/

namespace Flowchart

namespace Tree

/-- The fields stand in ascending order of their keys. -/
def Ascending (fields : List (String × α)) : Prop :=
  fields.Pairwise fun field field' => field.1 < field'.1

/-- The fields of all maps in the tree stand in ascending order. -/
inductive Ordered : Tree → Prop
  | null : Ordered .null
  | bool {b} : Ordered (.bool b)
  | number {n} : Ordered (.number n)
  | text {s} : Ordered (.text s)
  | list {items} (items_ordered : ∀ item ∈ items, Ordered item) :
      Ordered (.list items)
  | map {fields} (ascending : Ascending fields)
      (values_ordered : ∀ field ∈ fields, Ordered field.2) :
      Ordered (.map fields)

/-! ## Sorting -/

theorem mem_of_mem_insertField
    {key : String} {value : α} {fields : List (String × α)}
    {field : String × α} (h : field ∈ insertField key value fields) :
    field = (key, value) ∨ field ∈ fields := by
  induction fields with
  | nil => exact Or.inl (List.mem_singleton.mp h)
  | cons first fields ih =>
      unfold insertField at h
      split at h
      · exact List.mem_cons.mp h
      · split at h
        · rcases List.mem_cons.mp h with hnew | hold
          · exact Or.inl hnew
          · exact Or.inr (List.mem_cons_of_mem _ hold)
        · rcases List.mem_cons.mp h with hfirst | hrest
          · exact Or.inr (hfirst ▸ List.mem_cons_self)
          · exact (ih hrest).imp_right (List.mem_cons_of_mem _)

theorem Ascending.insertField
    {fields : List (String × α)} (h : Ascending fields) (key : String)
    (value : α) : Ascending (Tree.insertField key value fields) := by
  induction fields with
  | nil => exact List.pairwise_singleton _ _
  | cons first fields ih =>
      obtain ⟨hfirst, hrest⟩ := List.pairwise_cons.mp h
      unfold Tree.insertField
      split
      · next hlt =>
          refine List.pairwise_cons.mpr ⟨?_, h⟩
          intro field hfield
          rcases List.mem_cons.mp hfield with rfl | hfield
          · exact hlt
          · exact lt_trans hlt (hfirst field hfield)
      · split
        · next heq =>
            exact List.pairwise_cons.mpr ⟨heq ▸ hfirst, hrest⟩
        · next hge hne =>
            refine List.pairwise_cons.mpr ⟨?_, ih hrest⟩
            intro field hfield
            rcases mem_of_mem_insertField hfield with rfl | hfield
            · exact lt_of_le_of_ne (not_lt.mp hge) fun heq => hne heq.symm
            · exact hfirst field hfield

/-- A map is ordered if its values are. -/
theorem ordered_ofFields
    {pairs : List (String × Tree)}
    (h : ∀ pair ∈ pairs, pair.2.Ordered) : (ofFields pairs).Ordered := by
  have hsorted : ∀ sorted : List (String × Tree), Ascending sorted →
      (∀ field ∈ sorted, field.2.Ordered) →
      (Tree.map (pairs.foldl
        (fun sorted pair => insertField pair.1 pair.2 sorted)
          sorted)).Ordered := by
    induction pairs with
    | nil => exact fun sorted hascending hvalues => .map hascending hvalues
    | cons pair pairs ih =>
        intro sorted hascending hvalues
        refine ih (fun pair hpair => h pair (List.mem_cons_of_mem _ hpair)) _
          (hascending.insertField pair.1 pair.2) ?_
        intro field hfield
        rcases mem_of_mem_insertField hfield with rfl | hfield
        · exact h pair List.mem_cons_self
        · exact hvalues field hfield
  exact hsorted [] .nil (by simp)

end Tree

/-! ## Reading -/

namespace Draft

mutual

theorem toTree?_ordered :
    (draft : Draft) → (tree : Tree) → draft.toTree? = some tree → tree.Ordered
  | .null, _, h => by
      cases h
      exact .null
  | .bool b, _, h => by
      cases h
      exact .bool
  | .number n, _, h => by
      obtain ⟨n, -, rfl⟩ := Option.map_eq_some_iff.mp h
      exact .number
  | .text s, _, h => by
      obtain ⟨s, -, rfl⟩ := Option.map_eq_some_iff.mp h
      exact .text
  | .list items, _, h => by
      obtain ⟨trees, htrees, rfl⟩ := Option.map_eq_some_iff.mp h
      exact .list (toTrees?_ordered items trees htrees)
  | .map pairs, _, h => by
      obtain ⟨fields, hfields, rfl⟩ := Option.map_eq_some_iff.mp h
      exact Tree.ordered_ofFields (toFields?_ordered pairs fields hfields)
termination_by structural draft => draft

theorem toTrees?_ordered :
    (items : List Draft) → (trees : List Tree) →
      toTrees? items = some trees → ∀ tree ∈ trees, tree.Ordered
  | [], _, h => by
      cases h
      simp
  | item :: items, _, h => by
      simp only [toTrees?, Option.bind_eq_bind, Option.bind_eq_some_iff,
        Option.pure_def, Option.some.injEq] at h
      obtain ⟨tree, htree, trees, htrees, rfl⟩ := h
      intro t ht
      rcases List.mem_cons.mp ht with rfl | ht
      · exact toTree?_ordered item _ htree
      · exact toTrees?_ordered items trees htrees t ht
termination_by structural items => items

theorem toFields?_ordered :
    (pairs : List (Option String × Draft)) →
      (fields : List (String × Tree)) → toFields? pairs = some fields →
      ∀ field ∈ fields, field.2.Ordered
  | [], _, h => by
      cases h
      simp
  | (key, value) :: pairs, _, h => by
      simp only [toFields?, Option.bind_eq_bind, Option.bind_eq_some_iff,
        Option.pure_def, Option.some.injEq] at h
      obtain ⟨key, -, tree, htree, fields, hfields, rfl⟩ := h
      intro field hfield
      rcases List.mem_cons.mp hfield with rfl | hfield
      · exact toTree?_ordered value tree htree
      · exact toFields?_ordered pairs fields hfields field hfield
termination_by structural pairs => pairs

end

end Draft

namespace Tree

theorem ofText?_ordered
    {text : String} {tree : Tree} (h : ofText? text = some tree) :
    tree.Ordered := by
  simp only [ofText?] at h
  split at h
  · cases h
    exact .null
  · rcases Option.or_eq_some_iff.mp h with hstrict | ⟨-, hrelaxed⟩
    · obtain ⟨draft, -, htree⟩ := Option.bind_eq_some_iff.mp hstrict
      split at htree
      · exact draft.toTree?_ordered tree htree
      · cases htree
    · simp only [ofRelaxed?, Option.bind_eq_bind,
        Option.bind_eq_some_iff] at hrelaxed
      obtain ⟨_, -, draft, -, htree⟩ := hrelaxed
      exact draft.toTree?_ordered tree htree

/-- Every document that is read is ordered. -/
theorem ofText_ordered
    {text : String} {tree : Tree} (h : ofText text = .ok tree) :
    tree.Ordered := by
  unfold ofText at h
  split at h
  · next htree =>
      cases h
      exact ofText?_ordered htree
  · cases h

end Tree

end Flowchart
