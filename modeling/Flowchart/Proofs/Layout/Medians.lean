import Flowchart.Layout.Crossing
import Flowchart.Proofs.Layout.Single

/-!
# Medians

Of two sets of numbers, let the one with the smaller median stand to the left
of the other.  Then a pair of numbers, one of each set, stands in the wrong
order if the number on the left is the greater one.  There are at most three
times as many such pairs as there would be if the sets changed places, since a
median has as many numbers below it as above it.  Sets of up to two numbers
have no more such pairs than if they changed places, and sets of one number
have none.

This is said of exact medians.  Numbers up to 2^23 have the same median with
rounding; of greater numbers it is only known that the median lies between two
of them.
-/

open Finset

namespace Flowchart.Layout

/-! ## The middle of a list -/

/-- Twice the median of numbers that are sorted: the sum of the two numbers in
the middle, which may be the same one. -/
def middleSum (sorted : List Nat) : Nat :=
  sorted.getD ((sorted.length - 1) / 2) 0 + sorted.getD (sorted.length / 2) 0

/-- The median of numbers up to 2^23 is not rounded. -/
theorem doubledMedian_eq_middleSum {xs : List Nat}
    (hxs : ∀ x ∈ xs, x ≤ 2 ^ 23) : doubledMedian xs = middleSum xs := by
  have hle : ∀ i, xs.getD i 0 ≤ 2 ^ 23 := by
    intro i
    rcases Nat.lt_or_ge i xs.length with hi | hi
    · rw [List.getD_eq_getElem _ _ hi]
      exact hxs _ (List.getElem_mem hi)
    · rw [List.getD_eq_default _ _ hi]
      exact Nat.zero_le _
  rw [doubledMedian, middleSum]
  split
  · next hodd =>
      have hmiddle : (xs.length - 1) / 2 = xs.length / 2 := by omega
      rw [hmiddle, two_mul]
  · next heven =>
      have hmiddle : (xs.length - 1) / 2 = xs.length / 2 - 1 := by omega
      have hlow := hle (xs.length / 2 - 1)
      have hhigh := hle (xs.length / 2)
      rw [hmiddle, toSingle_of_le (by omega)]

/-- The median of any numbers of single precision is that of two of them. -/
theorem exists_doubledMedian_eq {xs : List Nat} (hne : xs ≠ [])
    (hxs : ∀ x ∈ xs, toSingle (2 * x) = 2 * x) :
    ∃ x ∈ xs, ∃ y ∈ xs, doubledMedian xs = toSingle (x + y) := by
  have hpos : 0 < xs.length := List.length_pos_of_ne_nil hne
  have hhigh : xs.length / 2 < xs.length := by omega
  have hlow : xs.length / 2 - 1 < xs.length := by omega
  rw [doubledMedian, List.getD_eq_getElem _ _ hhigh,
    List.getD_eq_getElem _ _ hlow]
  split
  · have hmem := List.getElem_mem hhigh
    exact ⟨_, hmem, _, hmem, by rw [← two_mul, hxs _ hmem]⟩
  · exact ⟨_, List.getElem_mem hlow, _, List.getElem_mem hhigh, rfl⟩

theorem exists_doubledMedian_le {xs : List Nat} (hne : xs ≠ [])
    (hxs : ∀ x ∈ xs, toSingle (2 * x) = 2 * x) :
    ∃ x ∈ xs, doubledMedian xs ≤ 2 * x := by
  obtain ⟨x, hx, y, hy, hmedian⟩ := exists_doubledMedian_eq hne hxs
  rw [hmedian]
  rcases Nat.le_total x y with hxy | hyx
  · exact ⟨y, hy, (toSingle_mono (by omega)).trans (hxs y hy).le⟩
  · exact ⟨x, hx, (toSingle_mono (by omega)).trans (hxs x hx).le⟩

theorem exists_le_doubledMedian {xs : List Nat} (hne : xs ≠ [])
    (hxs : ∀ x ∈ xs, toSingle (2 * x) = 2 * x) :
    ∃ x ∈ xs, 2 * x ≤ doubledMedian xs := by
  obtain ⟨x, hx, y, hy, hmedian⟩ := exists_doubledMedian_eq hne hxs
  rw [hmedian]
  rcases Nat.le_total x y with hxy | hyx
  · exact ⟨x, hx, (hxs x hx).ge.trans (toSingle_mono (by omega))⟩
  · exact ⟨y, hy, (hxs y hy).ge.trans (toSingle_mono (by omega))⟩

/-- The exact median is that of the one or two numbers in the middle. -/
theorem middleSum_eq {xs : List Nat} (hne : xs ≠ []) :
    ∃ left right : List Nat, left.length = right.length ∧
      ((∃ x, xs = left ++ x :: right ∧ middleSum xs = 2 * x) ∨
        ∃ x y, xs = left ++ x :: y :: right ∧ middleSum xs = x + y) := by
  have hpos : 0 < xs.length := List.length_pos_of_ne_nil hne
  obtain ⟨n, hlength | hlength⟩ := Nat.even_or_odd' xs.length
  · obtain ⟨k, rfl⟩ : ∃ k, n = k + 1 := ⟨n - 1, by omega⟩
    have hlow : k < xs.length := by omega
    have hhigh : k + 1 < xs.length := by omega
    refine ⟨xs.take k, xs.drop (k + 1 + 1), ?_,
      .inr ⟨xs[k], xs[k + 1], ?_, ?_⟩⟩
    · rw [List.length_take, List.length_drop]
      omega
    · rw [← List.drop_eq_getElem_cons hhigh, ← List.drop_eq_getElem_cons hlow,
        List.take_append_drop]
    · have hmiddle : xs.length / 2 = k + 1 := by omega
      have hmiddle' : (xs.length - 1) / 2 = k := by omega
      rw [middleSum, hmiddle, hmiddle', List.getD_eq_getElem _ _ hlow,
        List.getD_eq_getElem _ _ hhigh]
  · have hin : n < xs.length := by omega
    refine ⟨xs.take n, xs.drop (n + 1), ?_, .inl ⟨xs[n], ?_, ?_⟩⟩
    · rw [List.length_take, List.length_drop]
      omega
    · rw [← List.drop_eq_getElem_cons hin, List.take_append_drop]
    · have hmiddle : xs.length / 2 = n := by omega
      have hmiddle' : (xs.length - 1) / 2 = n := by omega
      rw [middleSum, hmiddle, hmiddle', List.getD_eq_getElem _ _ hin, two_mul]

/-- An ascending list falls into the numbers below its median, those at it and
as many above it as below. -/
theorem middleSum_split {xs : List Nat} (hxs : xs.Pairwise (· < ·)) :
    ∃ low middle high : List Nat,
      xs = low ++ middle ++ high ∧ low.length = high.length ∧
      (∀ x ∈ low, 2 * x < middleSum xs) ∧
      (∀ x ∈ middle, 2 * x = middleSum xs) ∧
      ∀ x ∈ high, middleSum xs < 2 * x := by
  rcases eq_or_ne xs [] with rfl | hne
  · exact ⟨[], [], [], rfl, rfl, by simp⟩
  obtain ⟨left, right, hlength, hmiddle⟩ := middleSum_eq hne
  rcases hmiddle with ⟨x, hsplit, hmedian⟩ | ⟨x, y, hsplit, hmedian⟩
  · rw [hsplit, List.pairwise_append, List.pairwise_cons] at hxs
    obtain ⟨-, ⟨hright, -⟩, hleft⟩ := hxs
    refine ⟨left, [x], right, by simpa using hsplit, hlength, ?_, ?_, ?_⟩
    · intro a ha
      have := hleft a ha x List.mem_cons_self
      omega
    · intro a ha
      rw [hmedian, List.mem_singleton.mp ha]
    · intro b hb
      have := hright b hb
      omega
  · rw [hsplit, List.pairwise_append, List.pairwise_cons,
      List.pairwise_cons] at hxs
    obtain ⟨-, ⟨hx, hy, -⟩, hleft⟩ := hxs
    have hxy : x < y := hx y List.mem_cons_self
    refine ⟨left ++ [x], [], y :: right, by simpa using hsplit,
      by simpa using hlength, ?_, by simp, ?_⟩
    · intro a ha
      rcases List.mem_append.mp ha with ha | ha
      · have := hleft a ha x List.mem_cons_self
        omega
      · rw [List.mem_singleton.mp ha]
        omega
    · intro b hb
      rcases List.mem_cons.mp hb with rfl | hb
      · omega
      · have := hy b hb
        omega

/-! ## The median of a set -/

/-- Twice the median of a set of numbers. -/
def medianOf (values : Finset Nat) : Nat :=
  middleSum (values.sort (· ≤ ·))

/-- As many numbers lie below the median as above it. -/
theorem medianOf_balanced (values : Finset Nat) :
    #{x ∈ values | 2 * x < medianOf values} =
      #{x ∈ values | medianOf values < 2 * x} := by
  obtain ⟨low, middle, high, hsplit, hlength, hlow, hmiddle, hhigh⟩ :=
    middleSum_split (sortedLT_sort values).pairwise
  rw [← medianOf] at hlow hmiddle hhigh
  have hcard : ∀ p : Nat → Bool, #{x ∈ values | p x} =
      ((low ++ middle ++ high).filter p).length := by
    intro p
    rw [← hsplit, ← List.toFinset_card_of_nodup ((sort_nodup _ _).filter p),
      List.toFinset_filter, sort_toFinset]
  have hbelow := hcard fun x => 2 * x < medianOf values
  have habove := hcard fun x => medianOf values < 2 * x
  simp only [decide_eq_true_eq] at hbelow habove
  rw [hbelow, habove]
  simp only [List.filter_append]
  rw [List.filter_eq_self.mpr (by simpa using hlow),
    List.filter_eq_nil_iff.mpr (by simpa using fun x hx => (hmiddle x hx).ge),
    List.filter_eq_nil_iff.mpr (by simpa using fun x hx => (hhigh x hx).le),
    List.filter_eq_nil_iff.mpr (by simpa using fun x hx => (hlow x hx).le),
    List.filter_eq_nil_iff.mpr (by simpa using fun x hx => (hmiddle x hx).le),
    List.filter_eq_self.mpr (by simpa using hhigh)]
  simpa using hlength

theorem exists_medianOf_le {values : Finset Nat} (hne : values.Nonempty) :
    ∃ x ∈ values, medianOf values ≤ 2 * x := by
  by_contra hnot
  push Not at hnot
  have hbalanced := medianOf_balanced values
  rw [filter_true_of_mem hnot,
    filter_false_of_mem fun x hx => (hnot x hx).asymm, card_empty,
    card_eq_zero] at hbalanced
  exact hne.ne_empty hbalanced

theorem exists_le_medianOf {values : Finset Nat} (hne : values.Nonempty) :
    ∃ x ∈ values, 2 * x ≤ medianOf values := by
  by_contra hnot
  push Not at hnot
  have hbalanced := medianOf_balanced values
  rw [filter_true_of_mem hnot,
    filter_false_of_mem fun x hx => (hnot x hx).asymm, card_empty, eq_comm,
    card_eq_zero] at hbalanced
  exact hne.ne_empty hbalanced

/-! ## Pairs in the wrong order -/

/-- The number of pairs of numbers, one of each set, where the first is the
greater one. -/
def inversions (values others : Finset Nat) : Nat :=
  #{pair ∈ values ×ˢ others | pair.2 < pair.1}

variable {values others : Finset Nat}

theorem inversions_eq_sum (values others : Finset Nat) :
    inversions values others =
      ∑ x ∈ values, ∑ y ∈ others, if y < x then 1 else 0 := by
  rw [inversions, card_filter, sum_product]

theorem inversions_eq_zero_iff :
    inversions values others = 0 ↔ ∀ x ∈ values, ∀ y ∈ others, x ≤ y := by
  simp only [inversions, card_eq_zero, filter_eq_empty_iff, mem_product,
    not_lt, and_imp, Prod.forall]
  exact ⟨fun h x hx y hy => h x y hx hy, fun h x y hx hy => h x hx y hy⟩

/-- A set falls into the numbers below a median, those at it and those above
it. -/
theorem card_parts (values : Finset Nat) (d : Nat) :
    #{x ∈ values | 2 * x ≤ d} =
        #{x ∈ values | 2 * x < d} + #{x ∈ values | 2 * x = d} ∧
      #{x ∈ values | d ≤ 2 * x} =
        #{x ∈ values | d < 2 * x} + #{x ∈ values | 2 * x = d} ∧
      values.card = #{x ∈ values | 2 * x < d} + #{x ∈ values | 2 * x = d} +
        #{x ∈ values | d < 2 * x} := by
  simp only [card_eq_sum_ones, sum_filter, ← sum_add_distrib]
  refine ⟨?_, ?_, ?_⟩
  all_goals
    refine sum_congr rfl fun x _ => ?_
    split_ifs <;> omega

/-- A set of one or two numbers is a pair of numbers, equal ones if need be,
with the median between them. -/
theorem exists_pair (hne : values.Nonempty) (hcard : values.card ≤ 2) :
    ∃ x y, x ≤ y ∧ values = {x, y} ∧ medianOf values = x + y := by
  have hlength : (values.sort (· ≤ ·)).length = values.card := length_sort _
  have hsorted := (sortedLT_sort values).pairwise
  have hvalues : (values.sort (· ≤ ·)).toFinset = values := sort_toFinset _ _
  have hpos : 0 < values.card := hne.card_pos
  rw [medianOf]
  match hlist : values.sort (· ≤ ·) with
  | [] =>
      rw [hlist, List.length_nil] at hlength
      omega
  | [x] =>
      rw [hlist] at hvalues
      exact ⟨x, x, le_rfl, by simpa using hvalues.symm,
        by simp [middleSum]⟩
  | [x, y] =>
      rw [hlist] at hvalues hsorted
      have hxy : x < y := List.pairwise_pair.mp hsorted
      exact ⟨x, y, hxy.le, by simpa using hvalues.symm,
        by simp [middleSum]⟩
  | x :: y :: z :: rest =>
      rw [hlist, List.length_cons, List.length_cons, List.length_cons]
        at hlength
      omega

section Ordered

variable (hle : medianOf values ≤ medianOf others)
include hle

/-- No number up to the first median is greater than one from the second median
on. -/
theorem inversions_add_le :
    inversions values others +
        #{x ∈ values | 2 * x ≤ medianOf values} *
          #{y ∈ others | medianOf others ≤ 2 * y} ≤
      values.card * others.card := by
  rw [← card_product, ← card_product values, inversions,
    ← card_filter_add_card_filter_not (s := values ×ˢ others)
      fun pair => pair.2 < pair.1]
  refine Nat.add_le_add_left (card_le_card fun pair hpair => ?_) _
  simp only [mem_product, mem_filter] at hpair ⊢
  exact ⟨⟨hpair.1.1, hpair.2.1⟩, by omega⟩

/-- Such numbers are in the wrong order if the sets change places, unless both
are the medians. -/
theorem le_inversions :
    #{y ∈ others | medianOf others ≤ 2 * y} *
          #{x ∈ values | 2 * x < medianOf values} +
        #{y ∈ others | medianOf others < 2 * y} *
          #{x ∈ values | 2 * x = medianOf values} ≤
      inversions others values := by
  rw [← card_product, ← card_product, ← card_union_of_disjoint]
  · refine card_le_card fun pair hpair => ?_
    simp only [mem_union, mem_product, mem_filter] at hpair ⊢
    rcases hpair with hpair | hpair
    · exact ⟨⟨hpair.1.1, hpair.2.1⟩, by omega⟩
    · exact ⟨⟨hpair.1.1, hpair.2.1⟩, by omega⟩
  · rw [disjoint_product]
    refine .inr (disjoint_filter.mpr fun x _ hx => ?_)
    omega

/-- Two sets have at most three times as many pairs in the wrong order as if
they changed places, if the one with the smaller median comes first. -/
theorem inversions_le_three_mul :
    inversions values others ≤ 3 * inversions others values := by
  have hupper := inversions_add_le hle
  have hlower := le_inversions hle
  have hbalanced := medianOf_balanced values
  have hbalanced' := medianOf_balanced others
  obtain ⟨hle, -, hall⟩ := card_parts values (medianOf values)
  obtain ⟨-, hge, hall'⟩ := card_parts others (medianOf others)
  rw [hle, hge, hall, hall', hbalanced, hbalanced'] at hupper
  rw [hge, hbalanced] at hlower
  nlinarith [hupper, hlower]

/-- Sets of up to two numbers have no more pairs in the wrong order than if they
changed places. -/
theorem inversions_le_of_card_le_two
    (hvalues : values.card ≤ 2) (hothers : others.card ≤ 2) :
    inversions values others ≤ inversions others values := by
  rcases values.eq_empty_or_nonempty with rfl | hne
  · simp [inversions]
  rcases others.eq_empty_or_nonempty with rfl | hne'
  · simp [inversions]
  obtain ⟨x, y, hxy, rfl, hmedian⟩ := exists_pair hne hvalues
  obtain ⟨z, w, hzw, rfl, hmedian'⟩ := exists_pair hne' hothers
  rw [hmedian, hmedian'] at hle
  rw [inversions_eq_sum, inversions_eq_sum]
  rcases hxy.eq_or_lt with rfl | hxy <;> rcases hzw.eq_or_lt with rfl | hzw
  · simp only [pair_eq_singleton, sum_singleton]
    split_ifs <;> omega
  · simp only [pair_eq_singleton, sum_singleton, sum_pair hzw.ne]
    split_ifs <;> omega
  · simp only [pair_eq_singleton, sum_singleton, sum_pair hxy.ne]
    split_ifs <;> omega
  · simp only [sum_pair hxy.ne, sum_pair hzw.ne]
    split_ifs <;> omega

/-- Two numbers at most are not in the wrong order. -/
theorem inversions_eq_zero_of_card_le_one
    (hvalues : values.card ≤ 1) (hothers : others.card ≤ 1) :
    inversions values others = 0 := by
  refine inversions_eq_zero_iff.mpr fun x hx y hy => ?_
  obtain ⟨x', hx', hmedian⟩ := exists_le_medianOf ⟨x, hx⟩
  obtain ⟨y', hy', hmedian'⟩ := exists_medianOf_le ⟨y, hy⟩
  have hxx' : x = x' := card_le_one.mp hvalues x hx x' hx'
  have hyy' : y = y' := card_le_one.mp hothers y hy y' hy'
  omega

end Ordered

end Flowchart.Layout
