import Flowchart.Layout.Scalar
import Mathlib

/-!
# Rounding whole numbers

A number of single precision is a whole number of at most 24 binary digits times
a power of two.  Such numbers are not changed by rounding, among them all up to
2^24; nor is twice a rounded number.  Rounding keeps the order of numbers, but
it may make different numbers equal.
-/

namespace Flowchart

theorem singleUnit_eq (n : Nat) : singleUnit n = 2 ^ (n.log2 - 23) :=
  rfl

theorem singleUnit_pos (n : Nat) : 0 < singleUnit n :=
  Nat.two_pow_pos _

/-! ## Numbers that are not changed -/

theorem toSingle_of_dvd {n : Nat} (h : singleUnit n ∣ n) : toSingle n = n := by
  have hrest : n % singleUnit n = 0 := Nat.mod_eq_zero_of_dvd h
  have hunit := singleUnit_pos n
  rw [toSingle, hrest, if_neg (by omega), Nat.div_mul_cancel h]

theorem toSingle_mul_two_pow {q : Nat} (hq : q ≤ 2 ^ 24) (e : Nat) :
    toSingle (q * 2 ^ e) = q * 2 ^ e := by
  rcases Nat.eq_zero_or_pos q with rfl | hpos
  · simp [toSingle]
  rcases Nat.eq_or_lt_of_le hq with rfl | hlt
  · refine toSingle_of_dvd ?_
    rw [← Nat.pow_add, singleUnit_eq, Nat.log2_two_pow]
    exact Nat.pow_dvd_pow 2 (by omega)
  · refine toSingle_of_dvd (Dvd.dvd.mul_left ?_ q)
    have hlog : (q * 2 ^ e).log2 < 24 + e := by
      rw [Nat.log2_lt (by positivity), Nat.pow_add]
      exact Nat.mul_lt_mul_of_pos_right hlt (Nat.two_pow_pos e)
    exact Nat.pow_dvd_pow 2 (by omega)

theorem toSingle_of_le {n : Nat} (h : n ≤ 2 ^ 24) : toSingle n = n := by
  simpa using toSingle_mul_two_pow h 0

/-- From 2^24 on some numbers are rounded, down or up. -/
example : [16777217, 16777218, 16777219].map toSingle =
    [16777216, 16777218, 16777220] := by decide

theorem div_singleUnit_lt (n : Nat) : n / singleUnit n < 2 ^ 24 := by
  rw [Nat.div_lt_iff_lt_mul (singleUnit_pos n), singleUnit_eq, ← Nat.pow_add]
  refine Nat.lt_log2_self.trans_le (Nat.pow_le_pow_right two_pos ?_)
  omega

theorem exists_toSingle_eq (n : Nat) :
    ∃ q e, q ≤ 2 ^ 24 ∧ toSingle n = q * 2 ^ e := by
  have hlt := div_singleUnit_lt n
  rw [toSingle]
  split
  · exact ⟨_, n.log2 - 23, hlt, rfl⟩
  · exact ⟨_, n.log2 - 23, hlt.le, rfl⟩

theorem toSingle_two_mul_toSingle (n : Nat) :
    toSingle (2 * toSingle n) = 2 * toSingle n := by
  obtain ⟨q, e, hq, heq⟩ := exists_toSingle_eq n
  have hdouble : 2 * (q * 2 ^ e) = q * 2 ^ (e + 1) := by ring
  rw [heq, hdouble, toSingle_mul_two_pow hq]

/-! ## The order of numbers -/

theorem le_toSingle (n : Nat) :
    n / singleUnit n * singleUnit n ≤ toSingle n := by
  rw [toSingle]
  split
  · exact Nat.mul_le_mul_right _ (Nat.le_succ _)
  · exact le_rfl

theorem toSingle_le (n : Nat) :
    toSingle n ≤ (n / singleUnit n + 1) * singleUnit n := by
  rw [toSingle]
  split
  · exact le_rfl
  · exact Nat.mul_le_mul_right _ (Nat.le_succ _)

theorem singleUnit_dvd_two_pow {n k : Nat} (h : n.log2 ≤ k) :
    singleUnit n ∣ 2 ^ k :=
  Nat.pow_dvd_pow 2 ((Nat.sub_le _ _).trans h)

theorem two_pow_le_toSingle {n : Nat} (hn : n ≠ 0) :
    2 ^ n.log2 ≤ toSingle n := by
  obtain ⟨c, hc⟩ := singleUnit_dvd_two_pow (le_refl n.log2)
  refine le_trans ?_ (le_toSingle n)
  have hle := Nat.log2_self_le hn
  rw [hc, Nat.mul_comm] at hle ⊢
  exact Nat.mul_le_mul_right _
    ((Nat.le_div_iff_mul_le (singleUnit_pos n)).mpr hle)

theorem toSingle_le_two_pow (n : Nat) : toSingle n ≤ 2 ^ (n.log2 + 1) := by
  obtain ⟨c, hc⟩ := singleUnit_dvd_two_pow (Nat.le_succ n.log2)
  have hlt : n < c * singleUnit n := by
    rw [Nat.mul_comm, ← hc]
    exact Nat.lt_log2_self
  rw [← Nat.succ_eq_add_one, hc, Nat.mul_comm]
  exact (toSingle_le n).trans (Nat.mul_le_mul_right _
    ((Nat.div_lt_iff_lt_mul (singleUnit_pos n)).mpr hlt))

/-- Numbers with equally many digits are rounded to the same unit.  Between
numbers with different numbers of digits there is a power of two, which is not
rounded. -/
theorem toSingle_mono : Monotone toSingle := by
  intro m n hmn
  by_cases hlog : m.log2 = n.log2
  · have hunit : singleUnit m = singleUnit n := by
      rw [singleUnit_eq, singleUnit_eq, hlog]
    rcases Nat.eq_or_lt_of_le (Nat.div_le_div_right (c := singleUnit n) hmn)
      with heq | hlt
    · have hm := Nat.div_add_mod m (singleUnit n)
      have hn := Nat.div_add_mod n (singleUnit n)
      rw [heq] at hm
      have hrest : m % singleUnit n ≤ n % singleUnit n := by omega
      rw [toSingle, toSingle, hunit, heq, Nat.add_mul]
      split <;> split <;> omega
    · refine (toSingle_le m).trans (le_trans ?_ (le_toSingle n))
      rw [hunit]
      exact Nat.mul_le_mul_right _ hlt
  · have hne : n ≠ 0 := by
      rintro rfl
      exact hlog (congrArg Nat.log2 (Nat.le_zero.mp hmn))
    have hlt : m.log2 + 1 ≤ n.log2 := by
      refine Nat.lt_of_le_of_ne ?_ hlog
      rw [Nat.log2_eq_log_two, Nat.log2_eq_log_two]
      exact Nat.log_mono_right hmn
    exact (toSingle_le_two_pow m).trans
      ((Nat.pow_le_pow_right two_pos hlt).trans (two_pow_le_toSingle hne))

end Flowchart
