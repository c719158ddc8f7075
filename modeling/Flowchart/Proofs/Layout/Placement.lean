import Flowchart.Layout.Placement
import Flowchart.Proofs.Layout.Rows

/-!
# Places in exact numbers

Rows are stacked without overlap: each is a band as tall as its tallest vertex,
and the next one begins below it.  Within a row, vertices keep their distance,
since each one is pushed as far as the vertex before it demands and the row is
moved as a whole afterwards.  A sweep moves one row after the other, so that
what it does to a row is not undone by the rows that follow.
-/

namespace Flowchart

/-! ## Exact numbers -/

namespace Scalar

theorem zero_eq :
    @OfScientific.ofScientific Rat toOfScientific 0 true 1 = 0 := by
  norm_num

theorem half_eq (x : Rat) : half x = x / 2 := by
  unfold half
  norm_num

theorem less_iff (x y : Rat) : less x y = true ↔ x < y :=
  decide_eq_true_iff

theorem larger_eq_max (x y : Rat) : larger x y = max x y := by
  change (if x < y then y else x) = max x y
  split
  · next h => exact (max_eq_right h.le).symm
  · next h => exact (max_eq_left (not_lt.mp h)).symm

theorem smaller_eq_min (x y : Rat) : smaller x y = min x y := by
  change (if y < x then y else x) = min x y
  split
  · next h => exact (min_eq_right h.le).symm
  · next h => exact (min_eq_left (not_lt.mp h)).symm

theorem foldl_larger_isGreatest (x : Rat) (xs : List Rat) :
    IsGreatest {y | y ∈ x :: xs} (xs.foldl larger x) := by
  have hlarger : larger = (max : Rat → Rat → Rat) := funext₂ larger_eq_max
  have hfold : (x :: xs).max? = some (xs.foldl max x) := List.max?_cons'
  rw [hlarger]
  exact List.max?_eq_some_iff.mp hfold

theorem foldl_smaller_isLeast (x : Rat) (xs : List Rat) :
    IsLeast {y | y ∈ x :: xs} (xs.foldl smaller x) := by
  have hsmaller : smaller = (min : Rat → Rat → Rat) := funext₂ smaller_eq_min
  have hfold : (x :: xs).min? = some (xs.foldl min x) := List.min?_cons'
  rw [hsmaller]
  exact List.min?_eq_some_iff.mp hfold

end Scalar

namespace Layout

variable {measures : Measures Rat} {sizes : Table (Size Rat)}

/-! ## Rows as bands -/

theorem bandHeight_isGreatest (sizes : Table (Size Rat)) (row : List String) :
    IsGreatest {y | y ∈ 0 :: row.map fun id => (sizeAt sizes id).height}
      (bandHeight sizes row) := by
  have hband : bandHeight sizes row =
      (row.map fun id => (sizeAt sizes id).height).foldl Scalar.larger 0 := by
    rw [List.foldl_map, bandHeight, Scalar.zero_eq]
  rw [hband]
  exact Scalar.foldl_larger_isGreatest 0 _

theorem bandHeight_nonneg (sizes : Table (Size Rat)) (row : List String) :
    0 ≤ bandHeight sizes row :=
  (bandHeight_isGreatest sizes row).2 List.mem_cons_self

theorem height_le_bandHeight
    {row : List String} {id : String} (hid : id ∈ row) :
    (sizeAt sizes id).height ≤ bandHeight sizes row :=
  (bandHeight_isGreatest sizes row).2
    (List.mem_cons_of_mem _ (List.mem_map_of_mem hid))

/-- The upper edge of the row behind a row. -/
def nextTop (measures : Measures Rat) (sizes : Table (Size Rat)) (top : Rat)
    (row : List String) : Rat :=
  if 0 < bandHeight sizes row then
    top + (bandHeight sizes row + measures.rankSpacing)
  else
    top

/-- The upper edge of the row with a number. -/
def rowTop (measures : Measures Rat) (sizes : Table (Size Rat)) (top : Rat)
    (rows : List (List String)) (r : Nat) : Rat :=
  (rows.take r).foldl (nextTop measures sizes) top

theorem placeBands_cons
    (measures : Measures Rat) (sizes : Table (Size Rat)) (top : Rat)
    (row : List String) (rows : List (List String)) (centers : Table Rat) :
    placeBands measures sizes top (row :: rows) centers =
      placeBands measures sizes (nextTop measures sizes top row) rows
        (row.foldl (fun centers id =>
          centers.insert id (top + bandHeight sizes row / 2)) centers) := by
  have hnext : (if Scalar.less 0.0 (bandHeight sizes row) then
      top + (bandHeight sizes row + measures.rankSpacing) else top) =
        nextTop measures sizes top row := by
    rw [Scalar.zero_eq]
    exact if_congr (Scalar.less_iff _ _) rfl rfl
  rw [placeBands, Scalar.half_eq]
  exact congrArg (placeBands measures sizes · rows _) hnext

theorem placeBands_of_notMem
    {rows : List (List String)} {id : String} (hid : ∀ row ∈ rows, id ∉ row)
    (top : Rat) (centers : Table Rat) :
    (placeBands measures sizes top rows centers)[id]? = centers[id]? := by
  induction rows generalizing top centers with
  | nil => rfl
  | cons row rows ih =>
      rw [placeBands_cons, ih (fun row hrow => hid row
        (List.mem_cons_of_mem _ hrow))]
      exact getElem?_foldl_insert_of_notMem (fun id => id) _
        (by simpa using hid row List.mem_cons_self) centers

/-- A vertex stands in the middle of its row. -/
theorem placeBands_of_standsIn
    {rows : List (List String)} {r : Nat} {id : String}
    (h : StandsIn rows r id) {row : List String} (hrow : rows[r]? = some row)
    (top : Rat) (centers : Table Rat) :
    (placeBands measures sizes top rows centers)[id]? =
      some (rowTop measures sizes top rows r + bandHeight sizes row / 2) := by
  induction rows generalizing r top centers with
  | nil => simp at hrow
  | cons first rows ih =>
      rw [placeBands_cons]
      cases r with
      | zero =>
          obtain rfl : first = row := by simpa using hrow
          have hlater : ∀ row ∈ rows, id ∉ row := by
            intro row hmem hid
            obtain ⟨i, hi⟩ := List.getElem?_of_mem hmem
            exact absurd ((h.mem_iff (i + 1) row hi).mp hid) (by omega)
          rw [placeBands_of_notMem hlater]
          exact getElem?_foldl_insert_of_mem (fun id => id) _
            (by simpa using (h.mem_iff 0 first rfl).mpr rfl)
            (fun _ _ _ => rfl) centers
      | succ r =>
          have hlater : StandsIn rows r id := by
            refine ⟨by simpa using h.lt_length, fun i row hi => ?_⟩
            rw [h.mem_iff (i + 1) row hi, Nat.add_right_cancel_iff]
          exact ih hlater hrow _ _

section Stacking

variable (hspacing : 0 ≤ measures.rankSpacing)
include hspacing

theorem le_nextTop (top : Rat) (row : List String) :
    top ≤ nextTop measures sizes top row := by
  have hband := bandHeight_nonneg sizes row
  unfold nextTop
  split <;> linarith

theorem rowTop_mono (top : Rat) (rows : List (List String)) :
    Monotone (rowTop measures sizes top rows) := by
  refine monotone_nat_of_le_succ fun r => ?_
  unfold rowTop
  rw [List.take_add_one, List.foldl_append]
  cases rows[r]? with
  | none => exact le_rfl
  | some row => exact le_nextTop hspacing _ row

/-- A row ends above the rows behind it. -/
theorem rowTop_add_le
    {rows : List (List String)} {r later : Nat} {row : List String}
    (hrow : rows[r]? = some row) (hband : 0 < bandHeight sizes row)
    (hlater : r < later) (top : Rat) :
    rowTop measures sizes top rows r + bandHeight sizes row +
        measures.rankSpacing ≤
      rowTop measures sizes top rows later := by
  have hnext : rowTop measures sizes top rows (r + 1) =
      rowTop measures sizes top rows r +
        (bandHeight sizes row + measures.rankSpacing) := by
    unfold rowTop
    rw [List.take_add_one, hrow, List.foldl_append]
    exact if_pos hband
  have hmono : rowTop measures sizes top rows (r + 1) ≤
      rowTop measures sizes top rows later :=
    rowTop_mono hspacing top rows hlater
  linarith

end Stacking

/-! ## Distances within a row -/

/-- The first of two centers is so far to the left of the second that the
vertices keep their distance. -/
def LeftOf (sizes : Table (Size Rat)) (spacing : Rat)
    (a b : String × Rat) : Prop :=
  a.2 + (sizeAt sizes a.1).width / 2 + (sizeAt sizes b.1).width / 2 + spacing ≤
    b.2

/-- One of two centers is so far to the left of the other. -/
def Beside (sizes : Table (Size Rat)) (spacing : Rat)
    (a b : String × Rat) : Prop :=
  LeftOf sizes spacing a b ∨ LeftOf sizes spacing b a

instance (sizes : Table (Size Rat)) (spacing : Rat) :
    Std.Symm (Beside sizes spacing) where
  symm _ _ := Or.symm

/-- Both vertices have centers, and they keep their distance. -/
def Apart (sizes : Table (Size Rat)) (spacing : Rat) (centers : Table Rat)
    (id other : String) : Prop :=
  ∃ x y, centers[id]? = some x ∧ centers[other]? = some y ∧
    Beside sizes spacing (id, x) (other, y)

theorem spread_ids
    {α : Type} [Scalar α] (spacing : α) (before : Option (α × α))
    (cs : List (Candidate α)) :
    (spread spacing before cs).map Prod.fst = cs.map Candidate.id := by
  induction cs generalizing before with
  | nil => rfl
  | cons c cs ih => exact congrArg (c.id :: ·) (ih _)

/-- The candidates are as wide as the vertices that they stand for. -/
def Fitting (sizes : Table (Size Rat)) (cs : List (Candidate Rat)) : Prop :=
  ∀ c ∈ cs, c.halfWidth = (sizeAt sizes c.id).width / 2

theorem candidates_fitting
    (sizes : Table (Size Rat)) (neighbours : Table (List String))
    (centers : Table Rat) (row : List String) :
    Fitting sizes (candidates sizes neighbours centers row) := by
  intro c hc
  obtain ⟨⟨id, i⟩, -, rfl⟩ := List.mem_map.mp hc
  exact Scalar.half_eq _

theorem candidates_ids
    {α : Type} [Scalar α] (sizes : Table (Size α))
    (neighbours : Table (List String)) (centers : Table α)
    (row : List String) :
    (candidates sizes neighbours centers row).map Candidate.id = row := by
  rw [candidates, List.map_map]
  exact List.zipIdx_map_fst 0 row

section Distances

variable {spacing : Rat} (hspacing : 0 ≤ spacing)
  (hwidth : ∀ id, 0 ≤ (sizeAt sizes id).width)
include hspacing hwidth

/-- All candidates stand to the right of what is before them. -/
theorem spread_right_of
    {cs : List (Candidate Rat)} (hfitting : Fitting sizes cs)
    (x halfWidth : Rat) (hhalf : 0 ≤ halfWidth) :
    ∀ entry ∈ spread spacing (some (x, halfWidth)) cs,
      x + halfWidth + (sizeAt sizes entry.1).width / 2 + spacing ≤ entry.2 := by
  induction cs generalizing x halfWidth with
  | nil => simp [spread]
  | cons c cs ih =>
      obtain ⟨hfirst, hlater⟩ := List.forall_mem_cons.mp hfitting
      have hc := hwidth c.id
      have hpushed : x + halfWidth + c.halfWidth + spacing ≤
          Scalar.larger c.desired (x + halfWidth + c.halfWidth + spacing) := by
        rw [Scalar.larger_eq_max]
        exact le_max_right _ _
      intro entry hentry
      rcases List.mem_cons.mp hentry with rfl | hentry
      · rw [hfirst] at hpushed ⊢
        exact hpushed
      · have hbehind := ih hlater _ c.halfWidth (by linarith) entry hentry
        linarith

theorem spread_pairwise
    {cs : List (Candidate Rat)} (hfitting : Fitting sizes cs)
    (before : Option (Rat × Rat)) :
    (spread spacing before cs).Pairwise (LeftOf sizes spacing) := by
  induction cs generalizing before with
  | nil => exact List.Pairwise.nil
  | cons c cs ih =>
      obtain ⟨hfirst, hlater⟩ := List.forall_mem_cons.mp hfitting
      refine List.pairwise_cons.mpr ⟨fun entry hentry => ?_, ih hlater _⟩
      have hc := hwidth c.id
      have hbehind := spread_right_of hspacing hwidth hlater _ c.halfWidth
        (by linarith) entry hentry
      rw [LeftOf, ← hfirst]
      exact hbehind

end Distances

/-! ## Placing rows -/

/-- A key that is inserted is found with one of the values inserted for it. -/
theorem exists_foldl_insert
    {α β : Type} (key : β → String) (value : β → α) {items : List β}
    {id : String} (hid : id ∈ items.map key) (table : Table α) :
    ∃ item ∈ items, key item = id ∧
      (items.foldl (fun t x => t.insert (key x) (value x)) table)[id]? =
        some (value item) := by
  induction items using List.reverseRecOn with
  | nil => simp at hid
  | append_singleton items last ih =>
      rw [List.foldl_append, List.foldl_cons, List.foldl_nil,
        Std.TreeMap.getElem?_insert]
      by_cases hlast : key last = id
      · refine ⟨last, List.mem_append_right _ List.mem_cons_self, hlast, ?_⟩
        simp [hlast]
      · have hearlier : id ∈ items.map key := by
          rw [List.map_append, List.mem_append] at hid
          exact hid.resolve_right fun h =>
            hlast (List.mem_singleton.mp h).symm
        obtain ⟨item, hitem, hkey, hvalue⟩ := ih hearlier
        refine ⟨item, List.mem_append_left _ hitem, hkey, ?_⟩
        simpa [hlast] using hvalue

/-- The centers of the vertices of a row, before the row is moved as a whole. -/
def spreadRow (measures : Measures Rat) (sizes : Table (Size Rat))
    (neighbours : Table (List String)) (centers : Table Rat)
    (row : List String) : List (String × Rat) :=
  spread measures.nodeSpacing none
    (sortBy Candidate.before (candidates sizes neighbours centers row))

section Rows

variable (neighbours : Table (List String)) (centers : Table Rat)

theorem spreadRow_ids
    (measures : Measures Rat) (sizes : Table (Size Rat)) (row : List String) :
    ((spreadRow measures sizes neighbours centers row).map Prod.fst).Perm
      row := by
  rw [spreadRow, spread_ids]
  exact ((sortBy_perm _ _).map _).trans
    (.of_eq (candidates_ids sizes neighbours centers row))

theorem exists_placeRow_eq
    (measures : Measures Rat) (sizes : Table (Size Rat)) (row : List String) :
    ∃ shift, placeRow measures sizes neighbours centers row =
      (spreadRow measures sizes neighbours centers row).foldl
        (fun centers entry => centers.insert entry.1 (entry.2 + shift))
        centers :=
  ⟨_, rfl⟩

theorem placeRow_of_notMem
    {id : String} {row : List String} (hid : id ∉ row) :
    (placeRow measures sizes neighbours centers row)[id]? = centers[id]? := by
  obtain ⟨shift, hplaced⟩ :=
    exists_placeRow_eq neighbours centers measures sizes row
  rw [hplaced]
  exact getElem?_foldl_insert_of_notMem Prod.fst _
    (fun h => hid ((spreadRow_ids neighbours centers measures sizes
      row).mem_iff.mp h)) centers

variable {id other : String} (hspacing : 0 ≤ measures.nodeSpacing)
  (hwidth : ∀ id, 0 ≤ (sizeAt sizes id).width)
include hspacing hwidth

theorem spreadRow_pairwise (row : List String) :
    (spreadRow measures sizes neighbours centers row).Pairwise
      (LeftOf sizes measures.nodeSpacing) :=
  spread_pairwise hspacing hwidth (fun c hc =>
    candidates_fitting sizes neighbours centers row c
      ((sortBy_perm _ _).subset hc)) none

/-- The vertices of a row keep their distance when the row is placed. -/
theorem placeRow_apart
    {row : List String} (hid : id ∈ row) (hother : other ∈ row)
    (hne : id ≠ other) :
    Apart sizes measures.nodeSpacing
      (placeRow measures sizes neighbours centers row) id other := by
  obtain ⟨shift, hplaced⟩ :=
    exists_placeRow_eq neighbours centers measures sizes row
  have hpairwise := spreadRow_pairwise neighbours centers hspacing hwidth row
  have hids := spreadRow_ids neighbours centers measures sizes row
  obtain ⟨a, ha, rfl, hfirst⟩ := exists_foldl_insert Prod.fst
    (fun entry : String × Rat => entry.2 + shift)
    (hids.mem_iff.mpr hid) centers
  obtain ⟨b, hb, rfl, hsecond⟩ := exists_foldl_insert Prod.fst
    (fun entry : String × Rat => entry.2 + shift)
    (hids.mem_iff.mpr hother) centers
  rw [hplaced]
  refine ⟨_, _, hfirst, hsecond, ?_⟩
  have hbeside : (spreadRow measures sizes neighbours centers row).Pairwise
      (Beside sizes measures.nodeSpacing) := hpairwise.imp Or.inl
  -- The shift of the row does not change distances.
  rcases hbeside.forall ha hb (fun heq => hne (congrArg Prod.fst heq))
    with hleft | hleft
  · refine .inl ?_
    unfold LeftOf at hleft ⊢
    linarith
  · refine .inr ?_
    unfold LeftOf at hleft ⊢
    linarith

/-- A row that is placed keeps its distances until it is placed again. -/
theorem foldl_placeRow_apart
    {rows : List (List String)}
    (hsame : ∀ row ∈ rows, id ∈ row ↔ other ∈ row)
    (hrow : ∃ row ∈ rows, id ∈ row) (hne : id ≠ other) :
    Apart sizes measures.nodeSpacing
      (rows.foldl (placeRow measures sizes neighbours) centers) id other := by
  induction rows using List.reverseRecOn with
  | nil => simp at hrow
  | append_singleton rows last ih =>
      rw [List.foldl_append, List.foldl_cons, List.foldl_nil]
      have hlast := hsame last (List.mem_append_right _ List.mem_cons_self)
      by_cases hid : id ∈ last
      · exact placeRow_apart neighbours _ hspacing hwidth hid
          (hlast.mp hid) hne
      · obtain ⟨row, hmem, hin⟩ := hrow
        have hearlier : row ∈ rows := by
          rcases List.mem_append.mp hmem with h | h
          · exact h
          · exact absurd (List.mem_singleton.mp h ▸ hin) hid
        obtain ⟨x, y, hx, hy, hapart⟩ := ih
          (fun row hrow => hsame row (List.mem_append_left _ hrow))
          ⟨row, hearlier, hin⟩
        refine ⟨x, y, ?_, ?_, hapart⟩
        · rw [placeRow_of_notMem neighbours _ hid, hx]
        · rw [placeRow_of_notMem neighbours _ (fun h => hid (hlast.mpr h)), hy]

/-- However often rows are placed, the vertices of a row keep their distance. -/
theorem horizontalCenters_apart
    {rows : List (List String)} (arcs : List Arc)
    (hsame : ∀ row ∈ rows, id ∈ row ↔ other ∈ row)
    (hrow : ∃ row ∈ rows, id ∈ row) (hne : id ≠ other) :
    Apart sizes measures.nodeSpacing
      (horizontalCenters measures sizes arcs rows) id other := by
  have hplaced : ∀ centers, Apart sizes measures.nodeSpacing
      (placeRows measures sizes (neighboursAbove arcs) (neighboursBelow arcs)
        rows centers) id other := by
    intro centers
    refine foldl_placeRow_apart _ _ hspacing hwidth (fun row hmem => ?_) ?_ hne
    · exact hsame row (List.mem_reverse.mp hmem)
    · obtain ⟨row, hmem, hid⟩ := hrow
      exact ⟨row, List.mem_reverse.mpr hmem, hid⟩
  obtain ⟨count, hcount⟩ : ∃ count, max measures.orderPasses 1 = count + 1 :=
    Nat.exists_eq_succ_of_ne_zero (by omega)
  rw [horizontalCenters, hcount, iterate]
  exact iterate_keeps
    (P := fun centers => Apart sizes measures.nodeSpacing centers id other)
    (fun centers _ => hplaced centers) count (hplaced _)

end Rows

end Layout

end Flowchart
