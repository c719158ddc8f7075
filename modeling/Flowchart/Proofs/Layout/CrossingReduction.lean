import Flowchart.Proofs.Layout.Crossings

/-!
# What ordering the rows does to the crossings

Rows are sorted in turn, each against one of the rows beside it, and what this
does to the crossings with the row on the other side is not looked at.  Nor is
an order kept because it was the best so far.  So there may be more crossings in
the end, even if there were none to begin with.

The last sweep goes from bottom to top, and it leaves every row sorted by the
medians in the row below, as this one stands in the end.  Hence the crossings
between two neighbouring rows are at most three times those that there would be
with the upper one of them in any other order, as long as the medians are exact,
which they are if the lower one has at most 2^23 vertices.
-/

open Finset

namespace Flowchart.Layout

/-! ## Layered graphs -/

/-- All vertices of the rows are different, and every arc leads from a row into
the next one. -/
structure Layered (arcs : List Arc) (rows : List (List String)) : Prop where
  arcs_nodup : arcs.Nodup
  nodup : rows.flatten.Nodup
  joins : ∀ arc ∈ arcs, ∃ pair ∈ rows.zip rows.tail,
    arc.source ∈ pair.1 ∧ arc.target ∈ pair.2

/-- The number of crossings between neighbouring rows. -/
def crossings (arcs : List Arc) (rows : List (List String)) : Nat :=
  ((rows.zip rows.tail).map fun pair =>
    crossingsBetween Arc.source Arc.target arcs pair.1 pair.2).sum

section Layers

variable {arcs : List Arc} {rows rows' : List (List String)}
variable {upper lower : List String} {i : Nat}

theorem mem_zip_tail_iff :
    (upper, lower) ∈ rows.zip rows.tail ↔
      ∃ i, rows[i]? = some upper ∧ rows[i + 1]? = some lower := by
  simp only [List.mem_iff_getElem?, List.getElem?_zip_eq_some,
    List.getElem?_tail]

theorem crossings_eq_zero_iff :
    crossings arcs rows = 0 ↔
      ∀ i upper lower, rows[i]? = some upper → rows[i + 1]? = some lower →
        crossingsBetween Arc.source Arc.target arcs upper lower = 0 := by
  rw [crossings, List.sum_eq_zero_iff]
  constructor
  · intro h i upper lower hupper hlower
    exact h _ (List.mem_map_of_mem (mem_zip_tail_iff.mpr ⟨i, hupper, hlower⟩))
  · intro h n hn
    obtain ⟨⟨upper, lower⟩, hpair, rfl⟩ := List.mem_map.mp hn
    obtain ⟨i, hupper, hlower⟩ := mem_zip_tail_iff.mp hpair
    exact h i upper lower hupper hlower

theorem Layered.of_contents (h : Layered arcs rows)
    (hcontents : contents rows' = contents rows) : Layered arcs rows' where
  arcs_nodup := h.arcs_nodup
  nodup := (flatten_perm_of_contents hcontents).nodup_iff.mpr h.nodup
  joins arc harc := by
    obtain ⟨⟨upper, lower⟩, hpair, hsource, htarget⟩ := h.joins arc harc
    obtain ⟨i, hupper, hlower⟩ := mem_zip_tail_iff.mp hpair
    obtain ⟨upper', hupper', hperm⟩ := exists_perm_of_contents hcontents hupper
    obtain ⟨lower', hlower', hperm'⟩ := exists_perm_of_contents hcontents hlower
    exact ⟨(upper', lower'), mem_zip_tail_iff.mpr ⟨i, hupper', hlower'⟩,
      hperm.mem_iff.mpr hsource, hperm'.mem_iff.mpr htarget⟩

theorem length_le_of_contents {bound : Nat}
    (hcontents : contents rows' = contents rows)
    (hlength : ∀ row ∈ rows, row.length ≤ bound) :
    ∀ row ∈ rows', row.length ≤ bound := by
  intro row' hrow'
  obtain ⟨i, hrow'⟩ := List.mem_iff_getElem?.mp hrow'
  obtain ⟨row, hrow, hperm⟩ := exists_perm_of_contents hcontents.symm hrow'
  rw [← hperm.length_eq]
  exact hlength row (List.mem_of_getElem? hrow)

section Neighbours

variable (h : Layered arcs rows)
variable (hupper : rows[i]? = some upper) (hlower : rows[i + 1]? = some lower)
include h hupper hlower

theorem Layered.faces_below : Faces Arc.source Arc.target arcs upper lower where
  nodup := (List.nodup_flatten.mp h.nodup).1 _ (List.mem_of_getElem? hupper)
  arcs_nodup := h.arcs_nodup
  ext _ _ := Arc.eq_of_ends
  leads arc harc hsource := by
    obtain ⟨⟨upper', lower'⟩, hpair, hsource', htarget⟩ := h.joins arc harc
    obtain ⟨i', hupper', hlower'⟩ := mem_zip_tail_iff.mp hpair
    obtain rfl := rank_unique h.nodup hupper hupper' hsource hsource'
    obtain rfl := Option.some.inj (hlower.symm.trans hlower')
    exact htarget

theorem Layered.faces_above : Faces Arc.target Arc.source arcs lower upper where
  nodup := (List.nodup_flatten.mp h.nodup).1 _ (List.mem_of_getElem? hlower)
  arcs_nodup := h.arcs_nodup
  ext _ _ htarget hsource := Arc.eq_of_ends hsource htarget
  leads arc harc htarget := by
    obtain ⟨⟨upper', lower'⟩, hpair, hsource, htarget'⟩ := h.joins arc harc
    obtain ⟨i', hupper', hlower'⟩ := mem_zip_tail_iff.mp hpair
    have hrank := rank_unique h.nodup hlower hlower' htarget htarget'
    obtain rfl : i = i' := Nat.succ.inj hrank
    obtain rfl := Option.some.inj (hupper.symm.trans hupper')
    exact hsource

end Neighbours

end Layers

/-! ## The last sweep -/

section Sweep

variable {arcs : List Arc} {rows : List (List String)}

/-- The row of a rank is sorted by the medians in the row below, if there is
one in which medians are exact. -/
def SettledBelow (arcs : List Arc) (rows : List (List String)) (i : Nat) :
    Prop :=
  ∀ upper lower, rows[i]? = some upper → rows[i + 1]? = some lower →
    lower.length ≤ 2 ^ 23 → Settled Arc.source Arc.target arcs upper lower

theorem settledBelow_sortRank (h : Layered arcs rows) {m i : Nat} (hmi : m ≤ i)
    (hbelow : ∀ j, m < j → SettledBelow arcs rows j) :
    SettledBelow arcs (sortRank (neighboursBelow arcs) rows m) i := by
  intro upper lower hupper hlower hlength
  rw [getElem?_sortRank_of_ne (by omega)] at hlower
  rcases Nat.eq_or_lt_of_le hmi with rfl | hlt
  · obtain ⟨row, hrow, -⟩ := exists_perm_of_contents
      (contents_sortRank (neighboursBelow arcs) rows m).symm hupper
    exact (h.faces_below hrow hlower).settled_of_sorted h.nodup hrow
      (List.mem_of_getElem? hlower) hupper hlength
  · rw [getElem?_sortRank_of_ne (by omega)] at hupper
    exact hbelow i hlt upper lower hupper hlower hlength

/-- From bottom to top, every row is sorted against one that stays as it is. -/
theorem settledBelow_sweep (m : Nat) (h : Layered arcs rows)
    (hbelow : ∀ i, m ≤ i → SettledBelow arcs rows i) (i : Nat) :
    SettledBelow arcs ((List.range m).reverse.foldl
      (sortRank (neighboursBelow arcs)) rows) i := by
  induction m generalizing rows with
  | zero => exact hbelow i (Nat.zero_le i)
  | succ m ih =>
      rw [List.range_succ, List.reverse_append, List.reverse_singleton,
        List.singleton_append, List.foldl_cons]
      exact ih (h.of_contents (contents_sortRank _ rows m)) fun i hi =>
        settledBelow_sortRank h hi hbelow

theorem settledBelow_sortRows (h : Layered arcs rows)
    (above : Table (List String)) (i : Nat) :
    SettledBelow arcs (sortRows above (neighboursBelow arcs) rows) i := by
  set down := (List.range' 1 (rows.length - 1)).foldl (sortRank above) rows
    with hdown
  have hcontents : contents down = contents rows := contents_sweep above _ rows
  rw [sortRows, ← hdown]
  refine settledBelow_sweep _ (h.of_contents hcontents) ?_ i
  intro j hj upper lower hupper hlower
  have hlt := (List.getElem?_eq_some_iff.mp hlower).1
  rw [length_of_contents hcontents] at hlt
  omega

theorem iterate_succ {α : Type} (f : α → α) (count : Nat) (a : α) :
    iterate f (count + 1) a = f (iterate f count a) := by
  induction count generalizing a with
  | zero => rfl
  | succ count ih => exact ih (f a)

theorem settledBelow_orderRows (h : Layered arcs rows) (passes i : Nat) :
    SettledBelow arcs (orderRows arcs passes rows) i := by
  obtain ⟨count, hcount⟩ : ∃ count, max passes 1 = count + 1 :=
    ⟨max passes 1 - 1, by omega⟩
  rw [orderRows, hcount, iterate_succ]
  exact settledBelow_sortRows
    (h.of_contents (contents_iterate_sortRows _ _ count rows)) _ i

end Sweep

/-! ## Two rows -/

section Pair

variable {arcs : List Arc} {upper lower : List String}

theorem crossings_pair (arcs : List Arc) (upper lower : List String) :
    crossings arcs [upper, lower] =
      crossingsBetween Arc.source Arc.target arcs upper lower := by
  simp [crossings]

variable (h : Layered arcs [upper, lower])
include h

theorem crossings_sortRank_lower_le (hlength : upper.length ≤ 2 ^ 23)
    (hdegree : ∀ id, degree Arc.target arcs id ≤ 2) :
    crossings arcs (sortRank (neighboursAbove arcs) [upper, lower] 1) ≤
      crossings arcs [upper, lower] := by
  obtain ⟨sorted, hrows⟩ : ∃ sorted,
      sortRank (neighboursAbove arcs) [upper, lower] 1 = [upper, sorted] :=
    ⟨_, rfl⟩
  have hsorted : (sortRank (neighboursAbove arcs) [upper, lower] 1)[1]? =
      some sorted := by rw [hrows]; rfl
  rw [hrows, crossings_pair, crossings_pair, crossingsBetween_comm,
    crossingsBetween_comm Arc.source]
  exact (h.faces_above (i := 0) rfl rfl).crossingsBetween_sorted_le h.nodup
    (r := 1) rfl List.mem_cons_self hsorted hlength fun id _ => hdegree id

theorem crossings_sortRank_upper_le (hlength : lower.length ≤ 2 ^ 23)
    (hdegree : ∀ id, degree Arc.source arcs id ≤ 2) :
    crossings arcs (sortRank (neighboursBelow arcs) [upper, lower] 0) ≤
      crossings arcs [upper, lower] := by
  obtain ⟨sorted, hrows⟩ : ∃ sorted,
      sortRank (neighboursBelow arcs) [upper, lower] 0 = [sorted, lower] :=
    ⟨_, rfl⟩
  have hsorted : (sortRank (neighboursBelow arcs) [upper, lower] 0)[0]? =
      some sorted := by rw [hrows]; rfl
  rw [hrows, crossings_pair, crossings_pair]
  exact (h.faces_below (i := 0) rfl rfl).crossingsBetween_sorted_le h.nodup
    (r := 0) rfl (List.mem_cons_of_mem _ List.mem_cons_self) hsorted hlength
    fun id _ => hdegree id

end Pair

theorem crossings_orderRows_le_of_two_rows
    {arcs : List Arc} {rows : List (List String)} (h : Layered arcs rows)
    (htwo : rows.length = 2) (hlength : ∀ row ∈ rows, row.length ≤ 2 ^ 23)
    (hdegree : ∀ id, degree Arc.source arcs id ≤ 2 ∧
      degree Arc.target arcs id ≤ 2) (passes : Nat) :
    crossings arcs (orderRows arcs passes rows) ≤ crossings arcs rows := by
  refine (iterate_keeps (P := fun sorted => contents sorted = contents rows ∧
    crossings arcs sorted ≤ crossings arcs rows) ?_ _ ⟨rfl, le_rfl⟩).2
  rintro sorted ⟨hcontents, hle⟩
  refine ⟨(contents_sortRows _ _ sorted).trans hcontents, le_trans ?_ hle⟩
  obtain ⟨upper, lower, rfl⟩ := List.length_eq_two.mp
    ((length_of_contents hcontents).trans htwo)
  have hlayered := h.of_contents hcontents
  have hdown := crossings_sortRank_lower_le hlayered
    (length_le_of_contents hcontents hlength _ List.mem_cons_self)
    fun id => (hdegree id).2
  have hdownContents := contents_sortRank (neighboursAbove arcs)
    [upper, lower] 1
  obtain ⟨lower', hrows⟩ : ∃ lower',
      sortRank (neighboursAbove arcs) [upper, lower] 1 = [upper, lower'] :=
    ⟨_, rfl⟩
  rw [hrows] at hdownContents
  have hup := crossings_sortRank_upper_le (hlayered.of_contents hdownContents)
    (length_le_of_contents (hdownContents.trans hcontents) hlength _
      (List.mem_cons_of_mem _ List.mem_cons_self))
    fun id => (hdegree id).1
  rw [← hrows] at hup
  exact hup.trans hdown

/-! ## Rows without crossings -/

/-- Every vertex between the first row and the last one that has an arc on one
side has one on the other side, too. -/
def Threaded (arcs : List Arc) (rows : List (List String)) : Prop :=
  ∀ i row, 0 < i → i + 1 < rows.length → rows[i]? = some row → ∀ id ∈ row,
    ((∃ arc ∈ arcs, arc.source = id) ↔ ∃ arc ∈ arcs, arc.target = id)

section Uncrossed

variable {arcs : List Arc} {rows rows' : List (List String)}

theorem Threaded.of_contents (h : Threaded arcs rows)
    (hcontents : contents rows' = contents rows) : Threaded arcs rows' := by
  intro i row' hpos hlt hrow' id hid
  obtain ⟨row, hrow, hperm⟩ := exists_perm_of_contents hcontents.symm hrow'
  exact h i row hpos (length_of_contents hcontents ▸ hlt) hrow id
    (hperm.mem_iff.mpr hid)

/-- Sorting a row brings about no crossings on either side, if all its vertices
that have arcs at all have arcs on the side that counts. -/
theorem crossings_sortRank_eq_zero
    {here there : Arc → String} {row other : List String} {r : Nat}
    (hfaces : Faces here there arcs row other) (hnodup : rows.flatten.Nodup)
    (hrow : rows[r]? = some row) (hother : other ∈ rows)
    (hcross : crossingsBetween here there arcs row other = 0)
    (hends : ∀ arc ∈ arcs, ∀ id ∈ row, arc.source = id ∨ arc.target = id →
      ∃ arc' ∈ arcs, here arc' = id)
    (hzero : crossings arcs rows = 0) :
    crossings arcs (sortRank (neighbours here there arcs) rows r) = 0 := by
  have hplaces : ∀ arc ∈ arcs, ∀ id ∈ row, arc.source = id ∨ arc.target = id →
      (places here there arcs other id).Nonempty := by
    intro arc harc id hid hend
    obtain ⟨arc', harc', hhere⟩ := hends arc harc id hid hend
    exact ⟨_, mem_places_iff.mpr ⟨arc', harc', hhere, rfl⟩⟩
  -- the ends of arcs stand in the same order as before
  have hkeeps : ∀ {i : Nat} {sorted order : List String},
      (sortRank (neighbours here there arcs) rows r)[i]? = some sorted →
      rows[i]? = some order → ∀ arc ∈ arcs, ∀ arc' ∈ arcs, ∀ id next,
      arc.source = id ∨ arc.target = id →
      arc'.source = next ∨ arc'.target = next →
      Before sorted id next → Before order id next := by
    intro i sorted order hsorted horder arc harc arc' harc' id next hid hnext h
    rcases eq_or_ne i r with rfl | hne
    · obtain rfl := Option.some.inj (hrow.symm.trans horder)
      have hperm := sortRank_perm hrow hsorted
      exact hfaces.before_of_uncrossed hnodup hrow hother hsorted hcross
        (hplaces arc harc id (hperm.mem_iff.mp h.left_mem) hid)
        (hplaces arc' harc' next (hperm.mem_iff.mp h.1) hnext) h
    · rw [getElem?_sortRank_of_ne hne] at hsorted
      rwa [Option.some.inj (horder.symm.trans hsorted)]
  rw [crossings_eq_zero_iff] at hzero ⊢
  intro i upper' lower' hupper' hlower'
  have hcontents := contents_sortRank (neighbours here there arcs) rows r
  obtain ⟨upper, hupper, -⟩ := exists_perm_of_contents hcontents.symm hupper'
  obtain ⟨lower, hlower, -⟩ := exists_perm_of_contents hcontents.symm hlower'
  have hbetween := crossingsBetween_eq_zero_iff.mp
    (hzero i upper lower hupper hlower)
  refine crossingsBetween_eq_zero_iff.mpr fun arc harc arc' harc' hsource
    htarget => hbetween arc harc arc' harc' ?_ ?_
  · exact hkeeps hupper' hupper arc harc arc' harc' _ _ (.inl rfl) (.inl rfl)
      hsource
  · exact hkeeps hlower' hlower arc' harc' arc harc _ _ (.inr rfl) (.inr rfl)
      htarget

theorem crossings_sweep_eq_zero
    {neighbours : Table (List String)} {ranks : List Nat}
    (hstep : ∀ sorted, contents sorted = contents rows →
      crossings arcs sorted = 0 → ∀ r ∈ ranks,
        crossings arcs (sortRank neighbours sorted r) = 0)
    (hzero : crossings arcs rows = 0) :
    crossings arcs (ranks.foldl (sortRank neighbours) rows) = 0 := by
  refine (List.foldlRecOn (motive := fun sorted =>
    contents sorted = contents rows ∧ crossings arcs sorted = 0)
      ranks _ ⟨rfl, hzero⟩ ?_).2
  rintro sorted ⟨hcontents, hsorted⟩ r hr
  exact ⟨(contents_sortRank neighbours sorted r).trans hcontents,
    hstep sorted hcontents hsorted r hr⟩

section Threaded

variable (h : Layered arcs rows) (hthreaded : Threaded arcs rows)
variable (hzero : crossings arcs rows = 0)
include h hthreaded hzero

theorem crossings_sortRank_above_eq_zero {r : Nat} (hr : r + 1 < rows.length) :
    crossings arcs (sortRank (neighboursAbove arcs) rows (r + 1)) = 0 := by
  have hupper := List.getElem?_eq_getElem (Nat.lt_of_succ_lt hr)
  have hlower := List.getElem?_eq_getElem hr
  refine crossings_sortRank_eq_zero (h.faces_above hupper hlower) h.nodup hlower
    (List.mem_of_getElem? hupper) ?_ ?_ hzero
  · rw [crossingsBetween_comm]
    exact crossings_eq_zero_iff.mp hzero r _ _ hupper hlower
  · rintro arc harc id hid (hsource | htarget)
    · obtain ⟨⟨upper, lower⟩, hpair, hsource', -⟩ := h.joins arc harc
      obtain ⟨i, hupper', hlower'⟩ := mem_zip_tail_iff.mp hpair
      obtain rfl := rank_unique h.nodup hlower hupper' hid (hsource ▸ hsource')
      exact (hthreaded _ _ (Nat.succ_pos r)
        (List.getElem?_eq_some_iff.mp hlower').1 hlower id hid).mp
          ⟨arc, harc, hsource⟩
    · exact ⟨arc, harc, htarget⟩

theorem crossings_sortRank_below_eq_zero {r : Nat} (hr : r + 1 < rows.length) :
    crossings arcs (sortRank (neighboursBelow arcs) rows r) = 0 := by
  have hupper := List.getElem?_eq_getElem (Nat.lt_of_succ_lt hr)
  have hlower := List.getElem?_eq_getElem hr
  refine crossings_sortRank_eq_zero (h.faces_below hupper hlower) h.nodup hupper
    (List.mem_of_getElem? hlower)
    (crossings_eq_zero_iff.mp hzero r _ _ hupper hlower) ?_ hzero
  rintro arc harc id hid (hsource | htarget)
  · exact ⟨arc, harc, hsource⟩
  · obtain ⟨⟨upper, lower⟩, hpair, -, htarget'⟩ := h.joins arc harc
    obtain ⟨i, hupper', hlower'⟩ := mem_zip_tail_iff.mp hpair
    obtain rfl := rank_unique h.nodup hupper hlower' hid (htarget ▸ htarget')
    exact (hthreaded _ _ (Nat.succ_pos i) hr hupper id hid).mpr
      ⟨arc, harc, htarget⟩

theorem crossings_sortRows_eq_zero :
    crossings arcs
      (sortRows (neighboursAbove arcs) (neighboursBelow arcs) rows) = 0 := by
  have hdown : crossings arcs ((List.range' 1 (rows.length - 1)).foldl
      (sortRank (neighboursAbove arcs)) rows) = 0 := by
    refine crossings_sweep_eq_zero
      (fun sorted hcontents hsorted r hr => ?_) hzero
    obtain ⟨hpos, hlt⟩ := List.mem_range'_1.mp hr
    rw [← Nat.sub_add_cancel hpos]
    refine crossings_sortRank_above_eq_zero (h.of_contents hcontents)
      (hthreaded.of_contents hcontents) hsorted ?_
    rw [length_of_contents hcontents]
    omega
  have hdownContents := contents_sweep (neighboursAbove arcs)
    (List.range' 1 (rows.length - 1)) rows
  rw [sortRows]
  refine crossings_sweep_eq_zero (fun sorted hcontents hsorted r hr => ?_) hdown
  have hlt := List.mem_range.mp (List.mem_reverse.mp hr)
  have hsame := hcontents.trans hdownContents
  refine crossings_sortRank_below_eq_zero (h.of_contents hsame)
    (hthreaded.of_contents hsame) hsorted ?_
  rw [length_of_contents hsame]
  omega

theorem crossings_orderRows_eq_zero (passes : Nat) :
    crossings arcs (orderRows arcs passes rows) = 0 := by
  refine (iterate_keeps (P := fun sorted => contents sorted = contents rows ∧
    crossings arcs sorted = 0) ?_ _ ⟨rfl, hzero⟩).2
  rintro sorted ⟨hcontents, hsorted⟩
  exact ⟨(contents_sortRows _ _ sorted).trans hcontents,
    crossings_sortRows_eq_zero (h.of_contents hcontents)
      (hthreaded.of_contents hcontents) hsorted⟩

end Threaded

end Uncrossed

/-! ## The rows in the end -/

/-- What ordering the rows does to the crossings.  Some of it holds where
medians are exact, next to rows of at most 2^23 vertices. -/
structure CrossingsReduced (arcs : List Arc)
    (rows sorted : List (List String)) : Prop where
  /-- Every row keeps its vertices. -/
  contents_eq : contents sorted = contents rows
  /-- No other order of a row has less than a third of the crossings with the
  row below it. -/
  le_three_mul : ∀ pair ∈ sorted.zip sorted.tail, pair.2.length ≤ 2 ^ 23 →
    ∀ row, row.Perm pair.1 →
      crossingsBetween Arc.source Arc.target arcs pair.1 pair.2 ≤
        3 * crossingsBetween Arc.source Arc.target arcs row pair.2
  /-- No other order of a row has fewer crossings with the row below it, if no
  vertex of the row has more than two arcs down. -/
  le_of_degree_le_two : ∀ pair ∈ sorted.zip sorted.tail,
    pair.2.length ≤ 2 ^ 23 →
    (∀ id ∈ pair.1, degree Arc.source arcs id ≤ 2) → ∀ row, row.Perm pair.1 →
      crossingsBetween Arc.source Arc.target arcs pair.1 pair.2 ≤
        crossingsBetween Arc.source Arc.target arcs row pair.2
  /-- Nothing crosses if no vertex has more than one arc down. -/
  eq_zero_of_degree_le_one : (∀ row ∈ rows, row.length ≤ 2 ^ 23) →
    (∀ id, degree Arc.source arcs id ≤ 1) → crossings arcs sorted = 0
  /-- Two rows do not get more crossings if no vertex has more than two arcs on
  a side. -/
  le_of_two_rows : rows.length = 2 → (∀ row ∈ rows, row.length ≤ 2 ^ 23) →
    (∀ id, degree Arc.source arcs id ≤ 2 ∧ degree Arc.target arcs id ≤ 2) →
      crossings arcs sorted ≤ crossings arcs rows
  /-- Where nothing crosses, nothing does in the end, if every vertex between
  the first row and the last one has arcs on both sides or none. -/
  eq_zero_of_threaded : Threaded arcs rows → crossings arcs rows = 0 →
    crossings arcs sorted = 0

/-- In the end every row stands in an order that is close to the best one
against the row below it.  There are three cases in which no crossings are
added: no vertex has more than one arc down; there are two rows and no vertex
has more than two arcs on a side; nothing crosses at first, and the vertices
between the first row and the last one have arcs on both sides or none. -/
theorem orderRows_crossingsReduced
    {arcs : List Arc} {rows : List (List String)} (h : Layered arcs rows)
    (passes : Nat) :
    CrossingsReduced arcs rows (orderRows arcs passes rows) := by
  have hcontents := contents_orderRows arcs passes rows
  have hlayered := h.of_contents hcontents
  have hfaces : ∀ pair ∈ (orderRows arcs passes rows).zip
      (orderRows arcs passes rows).tail, pair.2.length ≤ 2 ^ 23 →
      Faces Arc.source Arc.target arcs pair.1 pair.2 ∧
        Settled Arc.source Arc.target arcs pair.1 pair.2 := by
    intro pair hpair hlength
    obtain ⟨i, hupper, hlower⟩ := mem_zip_tail_iff.mp hpair
    exact ⟨hlayered.faces_below hupper hlower,
      settledBelow_orderRows h passes i _ _ hupper hlower hlength⟩
  refine ⟨hcontents, ?_, ?_, ?_, ?_, ?_⟩
  · intro pair hpair hlength row hperm
    obtain ⟨hfaces, hsettled⟩ := hfaces pair hpair hlength
    exact hsettled.crossingsBetween_le_three_mul (hfaces.of_perm hperm)
      hperm.symm
  · intro pair hpair hlength hdegree row hperm
    obtain ⟨hfaces, hsettled⟩ := hfaces pair hpair hlength
    exact hsettled.crossingsBetween_le (hfaces.of_perm hperm) hperm.symm
      fun id hid => hdegree id (hperm.mem_iff.mp hid)
  · intro hlength hdegree
    rw [crossings_eq_zero_iff]
    intro i upper lower hupper hlower
    obtain ⟨hfaces, hsettled⟩ := hfaces (upper, lower)
      (mem_zip_tail_iff.mpr ⟨i, hupper, hlower⟩)
      (length_le_of_contents hcontents hlength _
        (List.mem_of_getElem? hlower))
    exact hsettled.crossingsBetween_eq_zero hfaces .rfl fun id _ => hdegree id
  · exact fun htwo hlength hdegree =>
      crossings_orderRows_le_of_two_rows h htwo hlength hdegree passes
  · exact fun hthreaded hzero =>
      crossings_orderRows_eq_zero h hthreaded hzero passes

/-- Two crossing arcs. -/
def crossedArcs : List Arc := [⟨"a", "y"⟩, ⟨"b", "x"⟩]

theorem crossedArcs_uncrossed :
    Layered crossedArcs [["a", "b"], ["x", "y"]] ∧
    crossings crossedArcs [["a", "b"], ["x", "y"]] = 1 ∧
    crossings crossedArcs
      (orderRows crossedArcs 2 [["a", "b"], ["x", "y"]]) = 0 := by
  have hlayered : Layered crossedArcs [["a", "b"], ["x", "y"]] :=
    ⟨by decide, by decide, by decide⟩
  have hdegree : ∀ id, degree Arc.source crossedArcs id ≤ 1 := by
    intro id
    by_cases ha : "a" = id
    · subst ha
      decide
    · have hle : (if "b" = id then 1 else 0) ≤ 1 := by split <;> decide
      simpa [degree, crossedArcs, ha] using hle
  exact ⟨hlayered, by decide,
    (orderRows_crossingsReduced hlayered 2).eq_zero_of_degree_le_one
      (by decide) hdegree⟩

/-- In the row in the middle all vertices have arcs on one side only, but for
`f`.  It is drawn to the place of `g`, past `e`, which has no arc down to be
sorted by. -/
def straightArcs : List Arc :=
  [⟨"a", "c"⟩, ⟨"a", "e"⟩, ⟨"b", "e"⟩, ⟨"d", "f"⟩, ⟨"f", "g"⟩]

def straightRows : List (List String) :=
  [["a", "b", "d"], ["c", "e", "f"], ["g"]]

/-- Nothing crosses before, and afterwards the arcs from `a` to `e` and from `d`
to `f` do. -/
theorem straightRows_get_crossed :
    Layered straightArcs straightRows ∧
    crossings straightArcs straightRows = 0 ∧
    crossings straightArcs (orderRows straightArcs 4 straightRows) = 1 := by
  refine ⟨⟨by decide, by decide, by decide⟩, by decide, by decide +kernel⟩

end Flowchart.Layout
