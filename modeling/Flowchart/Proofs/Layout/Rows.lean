import Flowchart.Layout.Crossing
import Flowchart.Proofs.Layout.Levels
import Flowchart.Proofs.Layout.Sizes

/-!
# Rows

A vertex stands in the row of its rank and in no other row.  A dummy may share
its id with a vertex and would then bring that id into a row of its own, so this
is said of vertices whose ids are not those of dummies.  Sorting a row changes
nothing but the order in it.
-/

namespace Flowchart.Layout

/-! ## Sorting keeps what is in a row -/

/-- What the rows hold, whatever its order is. -/
def contents (rows : List (List String)) : List (Multiset String) :=
  rows.map Multiset.ofList

theorem sortRow_perm
    (neighbours : Table (List String)) (positions : Table Nat)
    (row : List String) :
    (sortRow neighbours positions row).Perm row := by
  have hsorted := (sortBy_perm (fun a b => lexLess a.1 b.1)
    (row.map fun id =>
      ((score neighbours positions (positionsOf [row]) id,
        (positionsOf [row]).getD id 0), id))).map Prod.snd
  rw [List.map_map] at hsorted
  exact hsorted.trans (.of_eq (List.map_id row))

theorem contents_sortRank
    (neighbours : Table (List String)) (rows : List (List String))
    (rank : Nat) :
    contents (sortRank neighbours rows rank) = contents rows := by
  refine List.ext_getElem? fun i => ?_
  rw [contents, contents, sortRank, List.getElem?_map, List.getElem?_map,
    List.getElem?_modify, Option.map_eq_map, Option.map_map]
  refine congrArg (Option.map · rows[i]?) (funext fun row => ?_)
  rw [Function.comp_apply]
  split
  · split
    · rfl
    · exact Multiset.coe_eq_coe.mpr (sortRow_perm _ _ row)
  · rfl

theorem contents_sweep
    (neighbours : Table (List String)) (ranks : List Nat)
    (rows : List (List String)) :
    contents (ranks.foldl (sortRank neighbours) rows) = contents rows := by
  refine List.foldlRecOn (motive := fun sorted =>
    contents sorted = contents rows) ranks _ rfl ?_
  intro sorted hsorted rank _
  exact (contents_sortRank neighbours sorted rank).trans hsorted

theorem contents_sortRows
    (above below : Table (List String)) (rows : List (List String)) :
    contents (sortRows above below rows) = contents rows := by
  rw [sortRows, contents_sweep, contents_sweep]

/-- What a step keeps is kept however often the step is done. -/
theorem iterate_keeps
    {α : Type} {P : α → Prop} {f : α → α} (hstep : ∀ a, P a → P (f a))
    (count : Nat) {a : α} (hstart : P a) : P (iterate f count a) := by
  induction count generalizing a with
  | zero => exact hstart
  | succ count ih => exact ih (hstep a hstart)

theorem contents_iterate_sortRows
    (above below : Table (List String)) (count : Nat)
    (rows : List (List String)) :
    contents (iterate (sortRows above below) count rows) = contents rows :=
  iterate_keeps (P := fun sorted => contents sorted = contents rows)
    (fun sorted hsorted => (contents_sortRows _ _ sorted).trans hsorted) _ rfl

theorem contents_orderRows
    (arcs : List Arc) (passes : Nat) (rows : List (List String)) :
    contents (orderRows arcs passes rows) = contents rows :=
  contents_iterate_sortRows _ _ _ rows

/-! ## Rows with the same contents -/

section Contents

variable {rows rows' : List (List String)}
variable (hcontents : contents rows' = contents rows)
include hcontents

theorem length_of_contents : rows'.length = rows.length := by
  simpa [contents] using congrArg List.length hcontents

theorem exists_perm_of_contents
    {i : Nat} {row : List String} (hrow : rows[i]? = some row) :
    ∃ row', rows'[i]? = some row' ∧ row'.Perm row := by
  have hi := congrArg (·[i]?) hcontents
  simp only [contents, List.getElem?_map, hrow, Option.map_some] at hi
  obtain ⟨row', hrow', hsame⟩ := Option.map_eq_some_iff.mp hi
  exact ⟨row', hrow', Multiset.coe_eq_coe.mp hsame⟩

theorem flatten_perm_of_contents : rows'.flatten.Perm rows.flatten := by
  have hsum : ∀ rows : List (List String),
      (rows.flatten : Multiset String) = (contents rows).sum := by
    intro rows
    induction rows with
    | nil => rfl
    | cons row rows ih =>
        rw [List.flatten_cons, ← Multiset.coe_add, ih]
        rfl
  exact Multiset.coe_eq_coe.mp (by rw [hsum, hsum, hcontents])

end Contents

/-- No vertex stands in two rows. -/
theorem rank_unique
    {rows : List (List String)} {row row' : List String} {id : String}
    {r r' : Nat} (hnodup : rows.flatten.Nodup) (hrow : rows[r]? = some row)
    (hrow' : rows[r']? = some row') (hid : id ∈ row) (hid' : id ∈ row') :
    r = r' := by
  have hdisjoint := List.pairwise_iff_getElem.mp
    (List.nodup_flatten.mp hnodup).2
  obtain ⟨hr, rfl⟩ := List.getElem?_eq_some_iff.mp hrow
  obtain ⟨hr', rfl⟩ := List.getElem?_eq_some_iff.mp hrow'
  rcases Nat.lt_trichotomy r r' with hlt | heq | hgt
  · exact absurd hid' (hdisjoint r r' hr hr' hlt hid)
  · exact heq
  · exact absurd hid (hdisjoint r' r hr' hr hgt hid')

/-! ## The rows of a graph -/

theorem dummyId_notMem
    {ids : List String} (hids : ∀ id ∈ ids, ¬ "__dummy_".toList <+: id.toList)
    (n : Nat) : dummyId n ∉ ids := by
  intro hmem
  refine hids _ hmem ?_
  simp [dummyId, String.toList_append]

/-- A vertex stands in the row with a number and in no other row. -/
structure StandsIn (rows : List (List String)) (r : Nat) (id : String) :
    Prop where
  lt_length : r < rows.length
  mem_iff : ∀ i row, rows[i]? = some row → (id ∈ row ↔ i = r)

theorem StandsIn.of_contents
    {rows rows' : List (List String)} {r : Nat} {id : String}
    (h : StandsIn rows r id) (hcontents : contents rows' = contents rows) :
    StandsIn rows' r id := by
  refine ⟨length_of_contents hcontents ▸ h.lt_length, fun i row' hrow' => ?_⟩
  obtain ⟨row, hrow, hperm⟩ := exists_perm_of_contents hcontents.symm hrow'
  rw [← h.mem_iff i row hrow]
  exact hperm.symm.mem_iff

theorem Arc.eq_of_ends {arc arc' : Arc} (hsource : arc.source = arc'.source)
    (htarget : arc.target = arc'.target) : arc = arc' :=
  congr (congrArg Arc.mk hsource) htarget

/-- The arcs with vertices at both ends. -/
def innerArcs (ids : List String) (arcs : List Arc) : List Arc :=
  arcs.filter fun arc => ids.contains arc.source && ids.contains arc.target

theorem properArcs_innerArcs (ids : List String) (arcs : List Arc) :
    properArcs ids (innerArcs ids arcs) = properArcs ids arcs := by
  rw [properArcs, innerArcs, List.filter_filter, properArcs]
  refine List.filter_congr fun arc _ => ?_
  cases arc.source != arc.target <;> cases ids.contains arc.source <;>
    cases ids.contains arc.target <;> rfl

/-- The ranks of a graph with its own order for the priority. -/
def ranksOf (ids : List String) (arcs : List Arc) : Ranks :=
  computeRanks (fun id => (placesOf ids).getD id 0) ids arcs

/-- The arcs without vertices at their ends do not count for the ranks. -/
theorem ranksOf_innerArcs (ids : List String) (arcs : List Arc) :
    ranksOf ids (innerArcs ids arcs) = ranksOf ids arcs := by
  simp only [ranksOf, computeRanks, takingOrder, properArcs_innerArcs]

theorem Route.rankedDummies_ids (route : Route) :
    route.rankedDummies.map Prod.fst = route.dummies :=
  List.map_fst_zip (by rw [List.length_range'])

section Graph

variable (ids : List String) (arcs : List Arc)

/-- The routes of a graph. -/
def routesOf : List Route :=
  routesFrom (ranksOf ids arcs) 0 (innerArcs ids arcs)

/-- The vertices and the dummies of a graph with their ranks. -/
def rankedVertices : List (String × Nat) :=
  ids.map (fun id => (id, rankOf (ranksOf ids arcs) id)) ++
    (routesOf ids arcs).flatMap Route.rankedDummies

theorem Layers.ofGraph_eq :
    ∃ places, Layers.ofGraph ids arcs =
      { rows := (List.range (maxRank (ranksOf ids arcs) + 1)).map
          (row (rankedVertices ids arcs) places)
        arcs := (routesOf ids arcs).flatMap Route.arcs
        dummies := (routesOf ids arcs).flatMap Route.dummies } := by
  have hdummies : ((routesOf ids arcs).flatMap Route.rankedDummies).map
      Prod.fst = (routesOf ids arcs).flatMap Route.dummies := by
    simp only [List.map_flatMap, Route.rankedDummies_ids]
  rw [← hdummies]
  simp only [rankedVertices, routesOf, ← ranksOf_innerArcs ids arcs]
  exact ⟨_, rfl⟩

end Graph

theorem Layers.mem_row_iff
    {ranked : List (String × Nat)} {places : Table Nat} {r : Nat}
    {id : String} : id ∈ row ranked places r ↔ (id, r) ∈ ranked := by
  rw [row, (sortBy_perm _ _).mem_iff, List.mem_map]
  constructor
  · rintro ⟨⟨_, _⟩, hentry, rfl⟩
    obtain ⟨hmem, hrank⟩ := List.mem_filter.mp hentry
    exact beq_iff_eq.mp hrank ▸ hmem
  · intro hmem
    exact ⟨(id, r), List.mem_filter.mpr ⟨hmem, beq_self_eq_true r⟩, rfl⟩

/-- A vertex stands in the row of its rank. -/
theorem Layers.rows_standsIn
    {ids : List String} {id : String} (hid : id ∈ ids)
    (hfree : ∀ n, id ≠ dummyId n) (arcs : List Arc) :
    StandsIn (ofGraph ids arcs).rows (rankOf (ranksOf ids arcs) id) id := by
  obtain ⟨places, hlayers⟩ := Layers.ofGraph_eq ids arcs
  have hranked : ∀ r, (id, r) ∈ rankedVertices ids arcs ↔
      r = rankOf (ranksOf ids arcs) id := by
    intro r
    have hdummy :
        (id, r) ∉ (routesOf ids arcs).flatMap Route.rankedDummies := by
      intro hmem
      obtain ⟨route, hroute, hranked⟩ := List.mem_flatMap.mp hmem
      obtain ⟨n, hn⟩ :=
        routesFrom_dummies hroute id (List.of_mem_zip hranked).1
      exact hfree n hn
    rw [rankedVertices, List.mem_append, or_iff_left hdummy, List.mem_map]
    constructor
    · rintro ⟨other, -, heq⟩
      obtain ⟨rfl, rfl⟩ := Prod.mk.inj heq
      rfl
    · rintro rfl
      exact ⟨id, hid, rfl⟩
  rw [hlayers]
  constructor
  · rw [List.length_map, List.length_range]
    exact Nat.lt_succ_of_le (rankOf_le_maxRank _ id)
  · intro i row hrow
    rw [List.getElem?_map] at hrow
    obtain ⟨i', hi', rfl⟩ := Option.map_eq_some_iff.mp hrow
    obtain ⟨-, rfl⟩ := List.getElem?_eq_some_iff.mp hi'
    rw [Layers.mem_row_iff, List.getElem_range, hranked]

end Flowchart.Layout
