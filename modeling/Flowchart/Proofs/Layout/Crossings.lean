import Flowchart.Proofs.Layout.SortedRows

/-!
# Crossings

Two arcs between two rows cross if the one that starts further to the left ends
further to the right.  Two vertices of a row bring about as many crossings as
there are pairs of their neighbours in the wrong order.  So a row that is sorted
by exact medians has at most three times the crossings that it has in any other
order, as long as the other row stays as it is.
-/

open Finset

namespace Flowchart.Layout

/-- The number of crossings between two rows, with `here` for the end of an arc
in the one row and `there` for its end in the other. -/
def crossingsBetween (here there : Arc → String) (arcs : List Arc)
    (row other : List String) : Nat :=
  #{pair ∈ arcs.toFinset ×ˢ arcs.toFinset |
    Before row (here pair.1) (here pair.2) ∧
      Before other (there pair.2) (there pair.1)}

section Between

variable {here there : Arc → String} {arcs : List Arc}
variable {row sorted other : List String} {id next : String}

theorem crossingsBetween_comm (here there : Arc → String) (arcs : List Arc)
    (row other : List String) :
    crossingsBetween here there arcs row other =
      crossingsBetween there here arcs other row := by
  refine card_equiv (Equiv.prodComm Arc Arc) fun pair => ?_
  simp only [mem_filter, mem_product, Equiv.prodComm_apply, Prod.fst_swap,
    Prod.snd_swap]
  rw [and_comm (a := pair.1 ∈ _), and_comm (a := Before row _ _)]

theorem crossingsBetween_eq_zero_iff :
    crossingsBetween here there arcs row other = 0 ↔
      ∀ arc ∈ arcs, ∀ arc' ∈ arcs, Before row (here arc) (here arc') →
        ¬Before other (there arc') (there arc) := by
  simp only [crossingsBetween, card_eq_zero, filter_eq_empty_iff, mem_product,
    List.mem_toFinset, Prod.forall, not_and, and_imp]
  exact ⟨fun h arc harc arc' harc' => h arc arc' harc harc',
    fun h arc arc' harc harc' => h arc harc arc' harc'⟩

theorem Faces.of_perm (hfaces : Faces here there arcs row other)
    (hperm : sorted.Perm row) : Faces here there arcs sorted other where
  nodup := hperm.nodup_iff.mpr hfaces.nodup
  arcs_nodup := hfaces.arcs_nodup
  ext := hfaces.ext
  leads arc harc hhere := hfaces.leads arc harc (hperm.mem_iff.mp hhere)

/-- Two vertices bring about as many crossings as there are pairs of their
neighbours in the wrong order. -/
theorem Faces.card_pairs (hfaces : Faces here there arcs row other)
    (hid : id ∈ row) (hnext : next ∈ row) :
    #{pair ∈ arcs.toFinset ×ˢ arcs.toFinset |
        (here pair.1 = id ∧ here pair.2 = next) ∧
          Before other (there pair.2) (there pair.1)} =
      inversions (places here there arcs other id)
        (places here there arcs other next) := by
  have hleads : ∀ arc ∈ arcs, here arc = id ∨ here arc = next →
      there arc ∈ other := by
    rintro arc harc (rfl | rfl)
    · exact hfaces.leads arc harc hid
    · exact hfaces.leads arc harc hnext
  refine card_bij (fun pair _ => (other.idxOf (there pair.1),
    other.idxOf (there pair.2))) ?_ ?_ ?_
  · rintro ⟨arc, arc'⟩ hpair
    simp only [mem_filter, mem_product, List.mem_toFinset] at hpair ⊢
    obtain ⟨⟨harc, harc'⟩, ⟨hhere, hhere'⟩, hbefore⟩ := hpair
    exact ⟨⟨mem_places_iff.mpr ⟨arc, harc, hhere, rfl⟩,
      mem_places_iff.mpr ⟨arc', harc', hhere', rfl⟩⟩, hbefore.2⟩
  · rintro ⟨arc, arc'⟩ hpair ⟨arc₁, arc₁'⟩ hpair₁ heq
    simp only [mem_filter, mem_product, List.mem_toFinset] at hpair hpair₁
    obtain ⟨⟨harc, harc'⟩, ⟨hhere, hhere'⟩, -⟩ := hpair
    obtain ⟨-, ⟨hhere₁, hhere₁'⟩, -⟩ := hpair₁
    obtain ⟨hthere, hthere'⟩ := Prod.mk.inj heq
    rw [List.idxOf_inj (hleads arc harc (.inl hhere))] at hthere
    rw [List.idxOf_inj (hleads arc' harc' (.inr hhere'))] at hthere'
    exact Prod.ext (hfaces.ext arc arc₁ (hhere.trans hhere₁.symm) hthere)
      (hfaces.ext arc' arc₁' (hhere'.trans hhere₁'.symm) hthere')
  · rintro ⟨place, place'⟩ hpair
    simp only [mem_filter, mem_product, mem_places_iff] at hpair
    obtain ⟨⟨⟨arc, harc, hhere, rfl⟩, arc', harc', hhere', rfl⟩, hlt⟩ := hpair
    refine ⟨(arc, arc'), ?_, rfl⟩
    simp only [mem_filter, mem_product, List.mem_toFinset]
    exact ⟨⟨harc, harc'⟩, ⟨hhere, hhere'⟩, hleads arc harc (.inl hhere), hlt⟩

theorem Faces.crossingsBetween_eq_sum
    (hfaces : Faces here there arcs row other) :
    crossingsBetween here there arcs row other =
      ∑ id ∈ row.toFinset, ∑ next ∈ row.toFinset,
        if Before row id next then
          inversions (places here there arcs other id)
            (places here there arcs other next)
        else 0 := by
  have hmaps : ∀ pair ∈ {pair ∈ arcs.toFinset ×ˢ arcs.toFinset |
      Before row (here pair.1) (here pair.2) ∧
        Before other (there pair.2) (there pair.1)},
      (here pair.1, here pair.2) ∈ row.toFinset ×ˢ row.toFinset := by
    intro pair hpair
    have hbefore := (mem_filter.mp hpair).2.1
    simpa using ⟨hbefore.left_mem, hbefore.1⟩
  rw [← sum_product', crossingsBetween, card_eq_sum_card_fiberwise hmaps]
  refine sum_congr rfl fun ⟨id, next⟩ hpair => ?_
  simp only [mem_product, List.mem_toFinset] at hpair
  rw [filter_filter]
  split
  · next hbefore =>
      rw [← hfaces.card_pairs hpair.1 hpair.2]
      refine congrArg card (filter_congr fun pair _ => ?_)
      rw [Prod.mk.injEq]
      constructor
      · rintro ⟨⟨-, hcross⟩, hhere⟩
        exact ⟨hhere, hcross⟩
      · rintro ⟨⟨rfl, rfl⟩, hcross⟩
        exact ⟨⟨hbefore, hcross⟩, rfl, rfl⟩
  · next hnot =>
      rw [card_eq_zero, filter_eq_empty_iff]
      rintro pair - ⟨⟨hbefore, -⟩, heq⟩
      obtain ⟨rfl, rfl⟩ := Prod.mk.inj heq
      exact hnot hbefore

/-- An order of a row is as good as any other, up to a factor, if this holds of
every two vertices and the other way round. -/
theorem Faces.crossingsBetween_le_mul
    (hfaces : Faces here there arcs row other) (hperm : sorted.Perm row)
    {k : Nat} (hk : 1 ≤ k)
    (hle : ∀ id next, Before sorted id next →
      inversions (places here there arcs other id)
          (places here there arcs other next) ≤
        k * inversions (places here there arcs other next)
          (places here there arcs other id)) :
    crossingsBetween here there arcs sorted other ≤
      k * crossingsBetween here there arcs row other := by
  set pairs : String → String → Nat := fun id next =>
    inversions (places here there arcs other id)
      (places here there arcs other next) with hpairs
  -- every two vertices are counted twice, so that their order is left open
  have htwice : ∀ {order : List String}, order.Perm row →
      2 * crossingsBetween here there arcs order other =
        ∑ id ∈ row.toFinset, ∑ next ∈ row.toFinset,
          ((if Before order id next then pairs id next else 0) +
            if Before order next id then pairs next id else 0) := by
    intro order horder
    rw [(hfaces.of_perm horder).crossingsBetween_eq_sum,
      List.toFinset_eq_of_perm _ _ horder, two_mul]
    simp only [sum_add_distrib]
    congr 1
    exact sum_comm
  have hsum : 2 * crossingsBetween here there arcs sorted other ≤
      k * (2 * crossingsBetween here there arcs row other) := by
    rw [htwice hperm, htwice (.refl row), mul_sum]
    refine sum_le_sum fun id hid => ?_
    rw [mul_sum]
    refine sum_le_sum fun next hnext => ?_
    rw [List.mem_toFinset] at hid hnext
    rcases eq_or_ne id next with rfl | hne
    · have hirrefl : ¬Before sorted id id := fun h => h.ne rfl
      simp [hirrefl]
    have hself : ∀ n, n ≤ k * n := fun n => Nat.le_mul_of_pos_left n hk
    rcases before_or_before (hperm.mem_iff.mpr hid) (hperm.mem_iff.mpr hnext)
      hne with h | h <;>
    rcases before_or_before hid hnext hne with h' | h' <;>
    simp only [h, h', h.asymm, h'.asymm, if_true, if_false, Nat.add_zero,
      Nat.zero_add]
    · exact hself _
    · exact hle id next h
    · exact hle next id h
    · exact hself _
  rw [Nat.mul_left_comm] at hsum
  exact Nat.le_of_mul_le_mul_left hsum Nat.two_pos

/-! ## Rows sorted by medians -/

/-- No vertex stands to the left of one whose neighbours in the other row have a
smaller median. -/
def Settled (here there : Arc → String) (arcs : List Arc)
    (row other : List String) : Prop :=
  ∀ id next, Before row id next →
    (places here there arcs other id).Nonempty →
    (places here there arcs other next).Nonempty →
    medianOf (places here there arcs other id) ≤
      medianOf (places here there arcs other next)

/-- The number of arcs that a vertex has on one side. -/
def degree (here : Arc → String) (arcs : List Arc) (id : String) : Nat :=
  arcs.countP fun arc => here arc = id

section Settled

variable (hsettled : Settled here there arcs sorted other)
include hsettled

theorem Settled.inversions_eq_zero_or_medianOf_le
    (h : Before sorted id next) :
    inversions (places here there arcs other id)
        (places here there arcs other next) = 0 ∨
      medianOf (places here there arcs other id) ≤
        medianOf (places here there arcs other next) := by
  rcases eq_empty_or_nonempty (places here there arcs other id) with hid | hid
  · exact .inl (inversions_eq_zero_iff.mpr (by simp [hid]))
  rcases eq_empty_or_nonempty (places here there arcs other next)
    with hnext | hnext
  · exact .inl (inversions_eq_zero_iff.mpr (by simp [hnext]))
  exact .inr (hsettled id next h hid hnext)

variable (hfaces : Faces here there arcs row other)
variable (hperm : sorted.Perm row)
include hfaces hperm

theorem Settled.crossingsBetween_le_three_mul :
    crossingsBetween here there arcs sorted other ≤
      3 * crossingsBetween here there arcs row other := by
  refine hfaces.crossingsBetween_le_mul hperm (by decide) fun id next h => ?_
  rcases hsettled.inversions_eq_zero_or_medianOf_le h with hzero | hle
  · rw [hzero]
    exact Nat.zero_le _
  · exact inversions_le_three_mul hle

theorem Settled.crossingsBetween_le
    (hdegree : ∀ id ∈ row, degree here arcs id ≤ 2) :
    crossingsBetween here there arcs sorted other ≤
      crossingsBetween here there arcs row other := by
  rw [← Nat.one_mul (crossingsBetween here there arcs row other)]
  refine hfaces.crossingsBetween_le_mul hperm le_rfl fun id next h => ?_
  rw [Nat.one_mul]
  rcases hsettled.inversions_eq_zero_or_medianOf_le h with hzero | hle
  · rw [hzero]
    exact Nat.zero_le _
  · exact inversions_le_of_card_le_two hle
      ((card_places_le id).trans (hdegree id (hperm.mem_iff.mp h.left_mem)))
      ((card_places_le next).trans (hdegree next (hperm.mem_iff.mp h.1)))

theorem Settled.crossingsBetween_eq_zero
    (hdegree : ∀ id ∈ row, degree here arcs id ≤ 1) :
    crossingsBetween here there arcs sorted other = 0 := by
  rw [(hfaces.of_perm hperm).crossingsBetween_eq_sum]
  refine sum_eq_zero fun id _ => sum_eq_zero fun next _ => ?_
  split
  · next h =>
      rcases hsettled.inversions_eq_zero_or_medianOf_le h with hzero | hle
      · exact hzero
      · exact inversions_eq_zero_of_card_le_one hle
          ((card_places_le id).trans (hdegree id (hperm.mem_iff.mp h.left_mem)))
          ((card_places_le next).trans (hdegree next (hperm.mem_iff.mp h.1)))
  · rfl

end Settled

/-! ## Sorting one of the rows -/

section Sorting

variable {rows : List (List String)} {r : Nat}
variable (hfaces : Faces here there arcs row other)
variable (hnodup : rows.flatten.Nodup)
variable (hrow : rows[r]? = some row) (hother : other ∈ rows)
variable (hsorted :
  (sortRank (neighbours here there arcs) rows r)[r]? = some sorted)
include hfaces hnodup hrow hother hsorted

/-- A row is sorted by medians after it has been sorted, if positions in the
other row are small enough for the medians to be exact. -/
theorem Faces.settled_of_sorted (hlength : other.length ≤ 2 ^ 23) :
    Settled here there arcs sorted other := by
  intro id next h hid hnext
  have hperm := sortRank_perm hrow hsorted
  have hpositions : ∀ vertex ∈ other,
      (positionsOf rows)[vertex]? = some (other.idxOf vertex) :=
    fun _ => getElem?_positionsOf hnodup hother
  have hscores := sortRank_before hfaces.nodup hrow hsorted h
  dsimp only at hscores
  rw [hfaces.score_eq (hperm.mem_iff.mp h.left_mem) hpositions hid hlength,
    hfaces.score_eq (hperm.mem_iff.mp h.1) hpositions hnext hlength] at hscores
  rcases hscores with hlt | ⟨heq, -⟩
  · exact hlt.le
  · exact heq.le

theorem Faces.crossingsBetween_sorted_le (hlength : other.length ≤ 2 ^ 23)
    (hdegree : ∀ id ∈ row, degree here arcs id ≤ 2) :
    crossingsBetween here there arcs sorted other ≤
      crossingsBetween here there arcs row other :=
  (hfaces.settled_of_sorted hnodup hrow hother hsorted
    hlength).crossingsBetween_le hfaces (sortRank_perm hrow hsorted) hdegree

/-- Where nothing crosses, vertices with neighbours keep their order.  Medians
need not be exact for this: they lie between positions of neighbours, and all
neighbours of the one vertex stand at or before those of the other. -/
theorem Faces.before_of_uncrossed
    (hzero : crossingsBetween here there arcs row other = 0)
    (hid : (places here there arcs other id).Nonempty)
    (hnext : (places here there arcs other next).Nonempty)
    (h : Before sorted id next) : Before row id next := by
  have hperm := sortRank_perm hrow hsorted
  have hidRow : id ∈ row := hperm.mem_iff.mp h.left_mem
  have hnextRow : next ∈ row := hperm.mem_iff.mp h.1
  have hpositions : ∀ vertex ∈ other,
      (positionsOf rows)[vertex]? = some (other.idxOf vertex) :=
    fun _ => getElem?_positionsOf hnodup hother
  rcases sortRank_before hfaces.nodup hrow hsorted h with hlt | ⟨-, hbefore⟩
  · refine (before_or_before hidRow hnextRow h.ne).resolve_right fun hback => ?_
    have hnone : inversions (places here there arcs other next)
        (places here there arcs other id) = 0 := by
      rw [← hfaces.card_pairs hnextRow hidRow, card_eq_zero,
        filter_eq_empty_iff]
      rintro ⟨arc, arc'⟩ hpair ⟨⟨rfl, rfl⟩, hcross⟩
      simp only [mem_product, List.mem_toFinset] at hpair
      exact crossingsBetween_eq_zero_iff.mp hzero arc hpair.1 arc' hpair.2
        hback hcross
    obtain ⟨low, hlow, -, -, hleScore, -⟩ :=
      hfaces.exists_score_between hidRow hpositions hid (positionsOf [row])
    obtain ⟨-, -, high, hhigh, -, hscoreLe⟩ :=
      hfaces.exists_score_between hnextRow hpositions hnext (positionsOf [row])
    have hle : toSingle high ≤ toSingle low :=
      toSingle_mono (inversions_eq_zero_iff.mp hnone high hhigh low hlow)
    omega
  · exact hbefore

end Sorting

end Between

end Flowchart.Layout
