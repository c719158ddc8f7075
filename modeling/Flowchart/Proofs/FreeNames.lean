import Flowchart.Diagram.Names
import Mathlib

/-!
# Free names

The search for a free name looks at one number more than names are taken, so
it cannot miss: distinct numbers give distinct names, and not all of them fit
into the names that are taken.  Hence every id that is handed out is new.
-/

namespace Flowchart.Names

/-! ## Numbered names -/

theorem numbered_injective (base : String) :
    Function.Injective (numbered base) := by
  intro m n h
  have hdigits : toString m = toString n :=
    (String.append_right_inj (base ++ "-")).mp h
  rw [Nat.toString_eq_repr, Nat.toString_eq_repr] at hdigits
  exact Nat.repr_injective hdigits

/-- The name itself, or the name with a number from two on. -/
def IsVariant (base name : String) : Prop :=
  name = base ∨ ∃ n, 2 ≤ n ∧ name = numbered base n

/-- A name that a node with a declared id and a rank may get. -/
def IsRenaming (declared : String) (rank : Nat) (name : String) : Prop :=
  name = declared ∨ IsVariant (numbered declared rank) name

/-! ## The search -/

/-- The search stops at the first free number, or at its last number when all
numbers before it are taken. -/
theorem exists_searchFree_eq
    (taken : List String) (base : String) (fuel n : Nat) :
    ∃ m, n ≤ m ∧ searchFree taken base fuel n = numbered base m ∧
      (∀ k, n ≤ k → k < m → numbered base k ∈ taken) ∧
      (numbered base m ∉ taken ∨ m = n + fuel) := by
  induction fuel generalizing n with
  | zero =>
      refine ⟨n, le_rfl, rfl, ?_, Or.inr rfl⟩
      intro k hnk hkn
      omega
  | succ fuel ih =>
      by_cases htaken : numbered base n ∈ taken
      · obtain ⟨m, hnm, heq, hbelow, hend⟩ := ih (n + 1)
        refine ⟨m, by omega, ?_, ?_, ?_⟩
        · simpa [searchFree, htaken] using heq
        · intro k hnk hkm
          rcases Nat.eq_or_lt_of_le hnk with rfl | hlt
          · exact htaken
          · exact hbelow k hlt hkm
        · rcases hend with hfree | hlast
          · exact Or.inl hfree
          · exact Or.inr (by omega)
      · refine ⟨n, le_rfl, ?_, ?_, Or.inl htaken⟩
        · simp [searchFree, htaken]
        · intro k hnk hkn
          omega

/-- Names that are all taken are no more than what is taken. -/
theorem count_le_of_taken
    {taken : List String} {candidate : Nat → String}
    (hinjective : Function.Injective candidate) {n count : Nat}
    (htaken : ∀ k < count, candidate (n + k) ∈ taken) :
    count ≤ taken.toFinset.card := by
  have hsubset : (Finset.range count).image (fun k => candidate (n + k)) ⊆
      taken.toFinset := by
    intro name hname
    obtain ⟨k, hk, rfl⟩ := Finset.mem_image.mp hname
    exact List.mem_toFinset.mpr (htaken k (Finset.mem_range.mp hk))
  have hshifted : Function.Injective fun k => candidate (n + k) :=
    hinjective.comp (add_right_injective n)
  have hcard := Finset.card_le_card hsubset
  rwa [Finset.card_image_of_injective _ hshifted, Finset.card_range] at hcard

theorem searchFree_notMem (taken : List String) (base : String) (n : Nat) :
    searchFree taken base taken.length n ∉ taken := by
  obtain ⟨m, hnm, heq, hbelow, hend⟩ :=
    exists_searchFree_eq taken base taken.length n
  rw [heq]
  rcases hend with hfree | hlast
  · exact hfree
  · intro hmem
    have hall : ∀ k < taken.length + 1, numbered base (n + k) ∈ taken := by
      intro k hk
      rcases Nat.lt_or_ge (n + k) m with hkm | hmk
      · exact hbelow (n + k) (Nat.le_add_right n k) hkm
      · have hkm : n + k = m := by omega
        exact hkm ▸ hmem
    have hcount := count_le_of_taken (numbered_injective base) hall
    have hcard := List.toFinset_card_le taken
    omega

/-! ## Ids -/

theorem firstFree_notMem (taken : List String) (base : String) :
    firstFree taken base ∉ taken := by
  unfold firstFree
  split
  · exact searchFree_notMem taken base 2
  · assumption

theorem firstFree_isVariant (taken : List String) (base : String) :
    IsVariant base (firstFree taken base) := by
  unfold firstFree
  split
  · obtain ⟨m, hm, heq, -, -⟩ :=
      exists_searchFree_eq taken base taken.length 2
    exact Or.inr ⟨m, hm, heq⟩
  · exact Or.inl rfl

theorem nodeId_notMem (taken : List String) (declared : String) (rank : Nat) :
    nodeId taken declared rank ∉ taken := by
  unfold nodeId
  split
  · exact firstFree_notMem taken (numbered declared rank)
  · assumption

theorem nodeId_isRenaming
    (taken : List String) (declared : String) (rank : Nat) :
    IsRenaming declared rank (nodeId taken declared rank) := by
  unfold nodeId
  split
  · exact Or.inr (firstFree_isVariant taken (numbered declared rank))
  · exact Or.inl rfl

end Flowchart.Names
