import Flowchart.Proofs.Layout.BrokenCycles
import Flowchart.Proofs.Layout.Medians
import Flowchart.Proofs.Layout.Rows

/-!
# Sorted rows

Among the vertices of a row that have neighbours in another row, sorting the row
lets none stand to the left of one with a smaller score, and vertices with equal
scores keep their order.  The score is the median of the neighbours' positions,
which is exact as long as the other row has at most 2^23 vertices.  Nothing of
this kind holds of the vertices without neighbours, which are scored by their
own positions.
-/

open Finset

namespace Flowchart.Layout

/-! ## The order in a row -/

/-- One vertex stands to the left of another in a row. -/
def Before (row : List String) (id next : String) : Prop :=
  next ∈ row ∧ row.idxOf id < row.idxOf next

instance Before.decidable (row : List String) (id next : String) :
    Decidable (Before row id next) :=
  inferInstanceAs (Decidable (_ ∧ _))

section Order

variable {row : List String} {id next : String}

theorem Before.left_mem (h : Before row id next) : id ∈ row :=
  List.idxOf_lt_length_iff.mp (h.2.trans (List.idxOf_lt_length_of_mem h.1))

theorem Before.asymm (h : Before row id next) : ¬Before row next id :=
  fun h' => Nat.lt_asymm h.2 h'.2

theorem Before.ne (h : Before row id next) : id ≠ next := by
  rintro rfl
  exact h.asymm h

theorem before_or_before (hid : id ∈ row) (hnext : next ∈ row)
    (hne : id ≠ next) : Before row id next ∨ Before row next id := by
  have hidx : row.idxOf id ≠ row.idxOf next :=
    fun h => hne ((List.idxOf_inj hid).mp h)
  rcases Nat.lt_or_gt_of_ne hidx with hlt | hgt
  · exact .inl ⟨hnext, hlt⟩
  · exact .inr ⟨hid, hgt⟩

theorem Before.rel {R : String → String → Prop} (h : Before row id next)
    (hrow : row.Pairwise R) : R id next := by
  have hnext := List.idxOf_lt_length_of_mem h.1
  have hid := List.idxOf_lt_length_of_mem h.left_mem
  have hrel := List.pairwise_iff_getElem.mp hrow _ _ hid hnext h.2
  rwa [List.getElem_idxOf, List.getElem_idxOf] at hrel

end Order

/-! ## What is looked up -/

theorem neighbours_getD (here there : Arc → String) (arcs : List Arc)
    (id : String) :
    (neighbours here there arcs).getD id [] =
      (arcs.filter fun arc => here arc = id).map there := by
  induction arcs using List.reverseRecOn with
  | nil => rfl
  | append_singleton arcs arc ih =>
      have hinsert : neighbours here there (arcs ++ [arc]) =
          (neighbours here there arcs).insert (here arc)
            ((neighbours here there arcs).getD (here arc) [] ++ [there arc]) :=
        List.foldl_concat ..
      rw [hinsert, Std.TreeMap.getD_insert, List.filter_append, List.map_append]
      by_cases heq : here arc = id
      · subst heq
        simp [ih]
      · simp [ih, heq]

theorem getElem?_positionsOf
    {rows : List (List String)} {row : List String} {id : String}
    (hnodup : rows.flatten.Nodup) (hrow : row ∈ rows) (hid : id ∈ row) :
    (positionsOf rows)[id]? = some (row.idxOf id) := by
  rw [positionsOf, ← List.foldl_flatMap (f := List.zipIdx)
    (g := fun (t : Table Nat) entry => t.insert entry.1 entry.2)]
  refine getElem?_foldl_insert_of_mem Prod.fst Prod.snd ?_ ?_ ∅
  · have hplace : row[row.idxOf id]? = some id :=
      List.getElem?_eq_some_iff.mpr
        ⟨List.idxOf_lt_length_of_mem hid, List.getElem_idxOf _⟩
    exact List.mem_map.mpr ⟨(id, row.idxOf id), List.mem_flatMap.mpr
      ⟨row, hrow, List.mk_mem_zipIdx_iff_getElem?.mpr hplace⟩, rfl⟩
  · rintro ⟨other, i⟩ hentry rfl
    obtain ⟨row', hrow', hentry⟩ := List.mem_flatMap.mp hentry
    have hplace := List.mk_mem_zipIdx_iff_getElem?.mp hentry
    obtain ⟨r, hr⟩ := List.mem_iff_getElem?.mp hrow
    obtain ⟨r', hr'⟩ := List.mem_iff_getElem?.mp hrow'
    obtain rfl := rank_unique hnodup hr hr' hid (List.mem_of_getElem? hplace)
    obtain rfl := Option.some.inj (hr.symm.trans hr')
    obtain ⟨hi, hplace⟩ := List.getElem?_eq_some_iff.mp hplace
    have hrowNodup := (List.nodup_flatten.mp hnodup).1 row hrow
    exact (hplace ▸ hrowNodup.idxOf_getElem i hi).symm

/-! ## Scores -/

/-- Arcs lead from a row to another one, with `here` for the end of an arc in
the one row and `there` for the end in the other. -/
structure Faces (here there : Arc → String) (arcs : List Arc)
    (row other : List String) : Prop where
  nodup : row.Nodup
  arcs_nodup : arcs.Nodup
  ext : ∀ arc arc', here arc = here arc' → there arc = there arc' → arc = arc'
  leads : ∀ arc ∈ arcs, here arc ∈ row → there arc ∈ other

/-- The positions of a vertex's neighbours in another row. -/
def places (here there : Arc → String) (arcs : List Arc) (other : List String)
    (id : String) : Finset Nat :=
  {arc ∈ arcs.toFinset | here arc = id}.image fun arc => other.idxOf (there arc)

theorem sortBy_eq_sort {values : List Nat} (hvalues : values.Nodup) :
    sortBy (fun a b => a < b) values = values.toFinset.sort (· ≤ ·) := by
  have hsorted : (sortBy (fun a b => decide (a < b)) values).Pairwise
      (· ≤ ·) := by
    refine (sortBy_pairwise ?_ ?_ values).imp fun hnot => ?_
    · intro x y h
      simp only [decide_eq_true_eq, decide_eq_false_iff_not] at h ⊢
      omega
    · intro x y z h h'
      simp only [decide_eq_false_iff_not] at h h' ⊢
      omega
    · simpa using hnot
  refine List.Perm.eq_of_pairwise (fun _ _ _ _ => Nat.le_antisymm) hsorted
    ((sortedLT_sort _).pairwise.imp Nat.le_of_lt) ?_
  refine List.perm_of_nodup_nodup_toFinset_eq
    ((sortBy_perm _ values).nodup_iff.mpr hvalues) (sort_nodup _ _) ?_
  rw [sort_toFinset]
  exact List.toFinset_eq_of_perm _ _ (sortBy_perm _ values)

section Facing

variable {here there : Arc → String} {arcs : List Arc}
variable {row other : List String} {id next : String}

theorem mem_places_iff {place : Nat} :
    place ∈ places here there arcs other id ↔
      ∃ arc ∈ arcs, here arc = id ∧ other.idxOf (there arc) = place := by
  simp [places, and_assoc]

theorem card_places_le (id : String) :
    #(places here there arcs other id) ≤
      arcs.countP fun arc => here arc = id := by
  refine card_image_le.trans ?_
  rw [List.countP_eq_length_filter]
  refine le_trans (card_le_card fun arc harc => ?_)
    (List.toFinset_card_le (arcs.filter fun arc => here arc = id))
  simpa using harc

/-- The positions of a vertex's neighbours in the order of the arcs. -/
def placeList (here there : Arc → String) (arcs : List Arc)
    (other : List String) (id : String) : List Nat :=
  (arcs.filter fun arc => here arc = id).map fun arc => other.idxOf (there arc)

theorem placeList_toFinset (id : String) :
    (placeList here there arcs other id).toFinset =
      places here there arcs other id := by
  ext place
  simp [placeList, mem_places_iff, and_assoc]

section Scores

variable (hfaces : Faces here there arcs row other) (hid : id ∈ row)
include hfaces hid

theorem Faces.lt_length_of_mem_placeList {place : Nat}
    (hplace : place ∈ placeList here there arcs other id) :
    place < other.length := by
  rw [← List.mem_toFinset, placeList_toFinset, mem_places_iff] at hplace
  obtain ⟨arc, harc, hhere, rfl⟩ := hplace
  exact List.idxOf_lt_length_of_mem (hfaces.leads arc harc (hhere ▸ hid))

theorem Faces.placeList_nodup : (placeList here there arcs other id).Nodup := by
  refine List.Nodup.map_on (fun arc harc arc' harc' heq => ?_)
    (hfaces.arcs_nodup.filter _)
  obtain ⟨harc, hhere⟩ := List.mem_filter.mp harc
  obtain ⟨harc', hhere'⟩ := List.mem_filter.mp harc'
  have hhere : here arc = id := of_decide_eq_true hhere
  have hhere' : here arc' = id := of_decide_eq_true hhere'
  exact hfaces.ext arc arc' (hhere.trans hhere'.symm)
    ((List.idxOf_inj (hfaces.leads arc harc (hhere ▸ hid))).mp heq)

variable {positions : Table Nat}
variable (hpositions : ∀ vertex ∈ other,
  positions[vertex]? = some (other.idxOf vertex))
variable (hne : (places here there arcs other id).Nonempty)
include hpositions hne

/-- A vertex with neighbours in the other row is scored by their positions. -/
theorem Faces.score_eq_doubledMedian (own : Table Nat) :
    score (neighbours here there arcs) positions own id =
      doubledMedian (sortBy (fun a b => a < b)
        ((placeList here there arcs other id).map toSingle)) := by
  have hlookup : ((neighbours here there arcs).getD id []).filterMap
      (fun neighbour => positions[neighbour]?.map toSingle) =
        (placeList here there arcs other id).map toSingle := by
    rw [neighbours_getD, List.filterMap_map, placeList, List.map_map,
      ← List.filterMap_eq_map]
    refine List.filterMap_congr fun arc harc => ?_
    obtain ⟨harc, hhere⟩ := List.mem_filter.mp harc
    have hthere := hfaces.leads arc harc (of_decide_eq_true hhere ▸ hid)
    exact congrArg (Option.map toSingle) (hpositions _ hthere)
  have hnonempty :
      ¬((placeList here there arcs other id).map toSingle).isEmpty := by
    rw [List.isEmpty_iff, List.map_eq_nil_iff, ← List.toFinset_eq_empty_iff,
      placeList_toFinset]
    exact hne.ne_empty
  rw [score, hlookup, if_neg hnonempty]

/-- In rows of at most 2^23 vertices the score is the exact median. -/
theorem Faces.score_eq (hlength : other.length ≤ 2 ^ 23) (own : Table Nat) :
    score (neighbours here there arcs) positions own id =
      medianOf (places here there arcs other id) := by
  have hplace : ∀ place ∈ placeList here there arcs other id,
      place ≤ 2 ^ 23 := fun place hmem =>
    (hfaces.lt_length_of_mem_placeList hid hmem).le.trans hlength
  have hexact : (placeList here there arcs other id).map toSingle =
      placeList here there arcs other id := by
    refine (List.map_congr_left fun place hmem => ?_).trans (List.map_id _)
    exact toSingle_of_le ((hplace place hmem).trans (by decide))
  rw [hfaces.score_eq_doubledMedian hid hpositions hne, hexact,
    doubledMedian_eq_middleSum, sortBy_eq_sort (hfaces.placeList_nodup hid),
    placeList_toFinset, medianOf]
  intro place hmem
  exact hplace place ((sortBy_perm _ _).mem_iff.mp hmem)

/-- The score lies between the positions of two neighbours, however large the
row is. -/
theorem Faces.exists_score_between (own : Table Nat) :
    ∃ low ∈ places here there arcs other id,
    ∃ high ∈ places here there arcs other id,
      2 * toSingle low ≤
        score (neighbours here there arcs) positions own id ∧
      score (neighbours here there arcs) positions own id ≤
        2 * toSingle high := by
  set sorted := sortBy (fun a b => decide (a < b))
    ((placeList here there arcs other id).map toSingle) with hsorted
  have hmem : ∀ single, single ∈ sorted ↔
      ∃ place ∈ places here there arcs other id, toSingle place = single := by
    intro single
    rw [hsorted, (sortBy_perm _ _).mem_iff, List.mem_map, ← placeList_toFinset]
    simp only [List.mem_toFinset]
  have hsingle : ∀ single ∈ sorted, toSingle (2 * single) = 2 * single := by
    intro single hmem'
    obtain ⟨place, -, rfl⟩ := (hmem single).mp hmem'
    exact toSingle_two_mul_toSingle place
  have hnonempty : sorted ≠ [] := by
    obtain ⟨place, hplace⟩ := hne
    exact List.ne_nil_of_mem ((hmem _).mpr ⟨place, hplace, rfl⟩)
  obtain ⟨low, hlow, hle⟩ := exists_le_doubledMedian hnonempty hsingle
  obtain ⟨high, hhigh, hle'⟩ := exists_doubledMedian_le hnonempty hsingle
  obtain ⟨lowPlace, hlowPlace, rfl⟩ := (hmem low).mp hlow
  obtain ⟨highPlace, hhighPlace, rfl⟩ := (hmem high).mp hhigh
  rw [hfaces.score_eq_doubledMedian hid hpositions hne]
  exact ⟨lowPlace, hlowPlace, highPlace, hhighPlace, hle, hle'⟩

end Scores

end Facing

/-! ## Sorting a row -/

theorem lexLess_iff {a b : Nat × Nat} :
    lexLess a b = true ↔ a.1 < b.1 ∨ a.1 = b.1 ∧ a.2 < b.2 := by
  unfold lexLess
  split
  · next h => simp [compare_lt_iff_lt.mp h]
  · next h => simp [compare_eq_iff_eq.mp h, compare_lt_iff_lt]
  · next h =>
      have hgt := compare_gt_iff_gt.mp h
      simp only [Bool.false_eq_true, false_iff]
      omega

/-- A vertex that stands to the left of another one has the smaller score, or
the same score and stood there before. -/
theorem sortRow_before
    {neighbours : Table (List String)} {positions : Table Nat}
    {row : List String} {id next : String} (hrow : row.Nodup)
    (h : Before (sortRow neighbours positions row) id next) :
    let own := positionsOf [row]
    score neighbours positions own id < score neighbours positions own next ∨
      score neighbours positions own id =
        score neighbours positions own next ∧ Before row id next := by
  intro own
  have hperm := sortRow_perm neighbours positions row
  have hid : id ∈ row := hperm.mem_iff.mp h.left_mem
  have hnext : next ∈ row := hperm.mem_iff.mp h.1
  have hown : ∀ vertex ∈ row, own.getD vertex 0 = row.idxOf vertex := by
    intro vertex hvertex
    rw [Std.TreeMap.getD_eq_getD_getElem?, getElem?_positionsOf (by simpa)
      (List.mem_singleton_self row) hvertex, Option.getD_some]
  set key : String → Nat × Nat := fun vertex =>
    (score neighbours positions own vertex, own.getD vertex 0) with hkey
  have hsorted : (sortRow neighbours positions row).Pairwise
      fun vertex vertex' => lexLess (key vertex') (key vertex) = false := by
    rw [sortRow]
    refine List.pairwise_map.mpr (List.Pairwise.imp_of_mem ?_
      (@sortBy_pairwise ((Nat × Nat) × String)
        (fun a b => lexLess a.1 b.1) ?_ ?_ _))
    · intro entry entry' hentry hentry' hnot
      rw [(sortBy_perm _ _).mem_iff] at hentry hentry'
      obtain ⟨vertex, -, rfl⟩ := List.mem_map.mp hentry
      obtain ⟨vertex', -, rfl⟩ := List.mem_map.mp hentry'
      exact hnot
    · intro entry entry' hless
      rw [lexLess_iff] at hless
      rw [Bool.eq_false_iff, Ne, lexLess_iff]
      omega
    · intro entry entry' entry'' hnot hnot'
      rw [Bool.eq_false_iff, Ne, lexLess_iff] at hnot hnot' ⊢
      omega
  have hnot := h.rel hsorted
  rw [Bool.eq_false_iff, Ne, lexLess_iff, hkey] at hnot
  dsimp only at hnot
  rw [hown id hid, hown next hnext] at hnot
  have hidx : row.idxOf id ≠ row.idxOf next :=
    fun heq => h.ne ((List.idxOf_inj hid).mp heq)
  have hbefore : Before row id next ↔ row.idxOf id < row.idxOf next :=
    and_iff_right hnext
  rw [hbefore]
  omega

/-! ## Sorting one of the rows -/

section Rank

variable {neighbours : Table (List String)} {rows : List (List String)}
variable {row sorted : List String} {r : Nat}

theorem getElem?_sortRank_of_ne {i : Nat} (hne : i ≠ r) :
    (sortRank neighbours rows r)[i]? = rows[i]? := by
  rw [sortRank, List.getElem?_modify]
  simp [hne.symm]

theorem getElem?_sortRank (hrow : rows[r]? = some row) :
    (sortRank neighbours rows r)[r]? = some
      (if row.length ≤ 1 then row
        else sortRow neighbours (positionsOf rows) row) := by
  rw [sortRank, List.getElem?_modify]
  simp [hrow]

theorem sortRank_perm (hrow : rows[r]? = some row)
    (hsorted : (sortRank neighbours rows r)[r]? = some sorted) :
    sorted.Perm row := by
  rw [getElem?_sortRank hrow] at hsorted
  obtain rfl := Option.some.inj hsorted
  split
  · exact .rfl
  · exact sortRow_perm neighbours _ row

theorem sortRank_before {id next : String} (hnodup : row.Nodup)
    (hrow : rows[r]? = some row)
    (hsorted : (sortRank neighbours rows r)[r]? = some sorted)
    (h : Before sorted id next) :
    let score := score neighbours (positionsOf rows) (positionsOf [row])
    score id < score next ∨ score id = score next ∧ Before row id next := by
  rw [getElem?_sortRank hrow] at hsorted
  obtain rfl := Option.some.inj hsorted
  split at h
  · next hshort =>
      have hid := List.idxOf_lt_length_of_mem h.1
      have := h.2
      omega
  · exact sortRow_before hnodup h

end Rank

end Flowchart.Layout
