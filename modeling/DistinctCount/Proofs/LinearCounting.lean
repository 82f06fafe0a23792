import Mathlib.Analysis.Complex.ExponentialBounds
import DistinctCount.Proofs.Unrounded
import DistinctCount.Estimate.Composite

/-! Linear counting. From one harmonic number to the next is at least one part in the number of registers,
also where the expansion takes over from the sum, so that the count grows with each register that is hit and
is never less than their number. -/

namespace DistinctCount

namespace Harmonic

theorem exact_succ (n : Nat) : (exact (n + 1) : ℝ) = exact n + 1 / (n + 1) := by
  simp only [exact, Unrounded.ofNat_eq, Nat.cast_succ, Nat.cast_zero, zero_add]

/-- What the expansion takes off from the logarithm and the half step. -/
noncomputable def tail (x : ℝ) : ℝ := 1 / (12 * x ^ 2) - 1 / (120 * x ^ 4) + 1 / (252 * x ^ 6)

theorem tail_nonneg {x : ℝ} (one : 1 ≤ x) : 0 ≤ tail x := by
  have positive : 0 < x := zero_lt_one.trans_le one
  have square : x ^ 2 ≤ x ^ 4 := pow_le_pow_right₀ one (by decide)
  have second : 1 / (120 * x ^ 4) ≤ 1 / (12 * x ^ 2) :=
    one_div_le_one_div_of_le (by positivity) (by linarith [pow_pos positive 2])
  exact add_nonneg (sub_nonneg.mpr second) (by positivity)

theorem asymptotic_eq (n : Nat) :
    (asymptotic n : ℝ) = Real.log n + eulerMascheroni + 1 / (2 * n) - tail n := by
  have logarithm : (Analytic.log (n : ℝ) : ℝ) = Real.log n := rfl
  simp only [asymptotic, Unrounded.ofNat_eq, logarithm, tail]
  push_cast
  ring

/-- The first terms of the series of a logarithm in odd powers. -/
theorem terms_le_log {x : ℝ} (positive : 0 < x) :
    2 * (1 / (2 * x + 1) + (1 / (2 * x + 1)) ^ 3 / 3 + (1 / (2 * x + 1)) ^ 5 / 5 +
      (1 / (2 * x + 1)) ^ 7 / 7) ≤ Real.log (x + 1) - Real.log x := by
  have terms := sum_le_hasSum (Finset.range 4) (fun k _ => by positivity)
    (Real.hasSum_log_one_add_inv positive)
  have quotient : Real.log (1 + x⁻¹) = Real.log (x + 1) - Real.log x := by
    rw [← Real.log_div (by positivity) positive.ne', add_div, div_self positive.ne', one_div]
  rw [quotient] at terms
  simp only [Finset.sum_range_succ, Finset.sum_range_zero] at terms
  norm_num at terms ⊢
  linarith

/-- The expansion falls short of a harmonic number by less and less. -/
theorem step_le_terms {x : ℝ} (positive : 0 < x) :
    1 / (x + 1) - (1 / (2 * (x + 1)) - tail (x + 1) - (1 / (2 * x) - tail x)) ≤
      2 * (1 / (2 * x + 1) + (1 / (2 * x + 1)) ^ 3 / 3 + (1 / (2 * x + 1)) ^ 5 / 5 +
        (1 / (2 * x + 1)) ^ 7 / 7) := by
  -- over a common denominator, all coefficients of the difference are positive
  have difference :
      2 * (1 / (2 * x + 1) + (1 / (2 * x + 1)) ^ 3 / 3 + (1 / (2 * x + 1)) ^ 5 / 5 +
        (1 / (2 * x + 1)) ^ 7 / 7) -
      (1 / (x + 1) - (1 / (2 * (x + 1)) - tail (x + 1) - (1 / (2 * x) - tail x))) =
      (1 / 252 + 5 / 63 * x + 201 / 280 * x ^ 2 + 27 / 7 * x ^ 3 + 3813 / 280 * x ^ 4 +
        4607 / 140 * x ^ 5 + 23129 / 420 * x ^ 6 + 946 / 15 * x ^ 7 + 947 / 20 * x ^ 8 +
        379 / 18 * x ^ 9 + 379 / 90 * x ^ 10) / (x ^ 6 * (x + 1) ^ 6 * (2 * x + 1) ^ 7) := by
    simp only [tail]
    field_simp
    ring
  rw [← sub_nonneg, difference]
  positivity

theorem inv_succ_le_asymptotic_sub {n : Nat} (positive : 0 < n) :
    1 / ((n : ℝ) + 1) ≤ asymptotic (n + 1) - asymptotic n := by
  have positive' : (0 : ℝ) < n := Nat.cast_pos.mpr positive
  have logarithm := terms_le_log positive'
  have rest := step_le_terms positive'
  rw [asymptotic_eq, asymptotic_eq, Nat.cast_succ]
  linarith

theorem log_twentyFive_gt : (3.213 : ℝ) < Real.log 25 := by
  have power : (2 : ℝ) ^ 51 < 25 ^ 11 := by norm_num
  have logarithm := Real.log_lt_log (by positivity) power
  rw [Real.log_pow, Real.log_pow] at logarithm
  have two := Real.log_two_gt_d9
  push_cast at logarithm
  linarith

/-- The step that changes from the sum to the expansion is not shorter than one part in thirty-two. -/
theorem step_at_asymptoticFrom : (1 / 32 : ℝ) ≤ number 25 - number 24 := by
  have sum : (number 24 : ℝ) = exact 24 := rfl
  have expansion : (number 25 : ℝ) = asymptotic 25 := rfl
  have logarithm := log_twentyFive_gt
  rw [sum, expansion, asymptotic_eq]
  simp only [exact, eulerMascheroni, tail, Unrounded.decimal_eq, Unrounded.ofNat_eq]
  norm_num
  linarith

variable {p : Precision} {n few many : Nat}

/-- Each step between harmonic numbers up to the number of registers is at least one part in that number. -/
theorem inv_size_le_number_sub (inside : n < p.size) :
    1 / (p.size : ℝ) ≤ number (n + 1) - number n := by
  have share : 1 / (p.size : ℝ) ≤ 1 / ((n : ℝ) + 1) := by
    have larger : ((n + 1 : Nat) : ℝ) ≤ p.size := Nat.cast_le.mpr inside
    rw [Nat.cast_succ] at larger
    exact one_div_le_one_div_of_le (by positivity) larger
  rcases Nat.lt_trichotomy (n + 1) asymptoticFrom with below | equal | above
  · have sum : (number (n + 1) : ℝ) - number n = 1 / (n + 1) := by
      rw [number, number, if_pos below, if_pos (Nat.lt_of_succ_lt below), exact_succ]
      exact add_sub_cancel_left _ _
    exact share.trans_eq sum.symm
  · -- rounded constants make this one step inexact, but there are twice as many registers as sixteen
    obtain rfl : n = 24 := Nat.succ.inj equal
    have fine : 32 ≤ p.size := by
      by_contra coarse
      have lg : p.lg < 5 := (Nat.pow_lt_pow_iff_right Nat.one_lt_two).mp (Nat.lt_of_not_le coarse)
      have size : p.size ≤ 2 ^ 4 := Nat.pow_le_pow_right Nat.two_pos (Nat.le_of_lt_succ lg)
      omega
    have fine' : (32 : ℝ) ≤ p.size := by exact_mod_cast fine
    exact (one_div_le_one_div_of_le (by norm_num) fine').trans step_at_asymptoticFrom
  · have beyond : asymptoticFrom ≤ n := Nat.le_of_lt_succ above
    have beyond' : asymptoticFrom ≤ n + 1 := beyond.trans (Nat.le_succ n)
    rw [number, number, if_neg (Nat.not_lt.mpr beyond), if_neg (Nat.not_lt.mpr beyond')]
    exact share.trans (inv_succ_le_asymptotic_sub (Nat.lt_of_lt_of_le (by decide) beyond))

/-- Harmonic numbers are apart by at least as many parts as they are apart in number. -/
theorem sub_div_size_le (fewer : few ≤ many) (inside : many ≤ p.size) :
    ((many : ℝ) - few) / p.size ≤ number many - number few := by
  induction many, fewer using Nat.le_induction with
  | base => simp
  | succ many fewer ih =>
    -- the distance grows by one step at a time
    have run := ih (Nat.le_of_succ_le inside)
    have step := inv_size_le_number_sub (p := p) inside
    rw [Nat.cast_succ, add_sub_right_comm, add_div]
    linarith

theorem itemsForUnhit_anti (fewer : few ≤ many) (inside : many ≤ p.size) :
    (itemsForUnhit p.size many : ℝ) ≤ itemsForUnhit p.size few := by
  have apart := sub_div_size_le fewer inside
  have nonneg : 0 ≤ ((many : ℝ) - few) / p.size :=
    div_nonneg (sub_nonneg.mpr (Nat.cast_le.mpr fewer)) (Nat.cast_nonneg _)
  exact mul_le_mul_of_nonneg_left (by linarith) (Nat.cast_nonneg _)

theorem size_sub_le_itemsForUnhit (inside : many ≤ p.size) :
    (p.size : ℝ) - many ≤ itemsForUnhit p.size many := by
  have positive : (0 : ℝ) < p.size := Nat.cast_pos.mpr p.size_pos
  have apart := sub_div_size_le inside le_rfl
  rw [div_le_iff₀' positive] at apart
  exact apart

/-- Half an untouched register stands for more items than a whole one. -/
theorem number_sub_le_log (p : Precision) :
    (number p.size - number 1 : ℝ) ≤ Real.log p.size + Real.log 2 := by
  have two := Real.log_two_gt_d9
  have one : (number 1 : ℝ) = exact 1 := rfl
  rcases p.four_le.eq_or_lt with coarse | fine
  · have sixteen : p.size = 16 := by rw [Precision.size, ← coarse]
    have sum : (number 16 : ℝ) = exact 16 := rfl
    have logarithm : Real.log 16 = 4 * Real.log 2 := by
      rw [show (16 : ℝ) = 2 ^ 4 by norm_num, Real.log_pow]
      norm_num
    rw [sixteen, Nat.cast_ofNat, logarithm, sum, one]
    simp only [exact, Unrounded.ofNat_eq]
    norm_num
    linarith
  · have many : 2 ^ 5 ≤ p.size := Nat.pow_le_pow_right Nat.two_pos fine
    have many' : (32 : ℝ) ≤ p.size := by exact_mod_cast many
    have beyond : ¬p.size < asymptoticFrom := Nat.not_lt.mpr (le_trans (by decide) many)
    have share : (p.size : ℝ)⁻¹ ≤ 32⁻¹ := inv_anti₀ (by norm_num) many'
    have rest : 0 ≤ tail (p.size : ℝ) := tail_nonneg (by linarith)
    rw [number, if_neg beyond, asymptotic_eq, one]
    simp only [exact, eulerMascheroni, Unrounded.decimal_eq, Unrounded.ofNat_eq]
    norm_num
    linarith

end Harmonic

namespace Composite

variable {p : Precision} {t t' : Tally ℝ}

theorem linearEstimate_of_unhit (some : unhit t ≠ 0) :
    linearEstimate p t = Harmonic.itemsForUnhit p.size (unhit t) := if_neg some

theorem linearEstimate_of_none (none : unhit t = 0) :
    linearEstimate p t = p.size * (Real.log p.size + Real.log 2) := by
  have positive : (p.size : ℝ) ≠ 0 := Nat.cast_ne_zero.mpr p.size_pos.ne'
  have half : Real.log (p.size / (5 / 10 ^ 1)) = Real.log p.size + Real.log 2 := by
    rw [show (p.size : ℝ) / (5 / 10 ^ 1) = p.size * 2 by ring, Real.log_mul positive two_ne_zero]
  have value : linearEstimate p t = p.size * Real.log (p.size / (5 / 10 ^ 1)) := if_pos none
  rw [value, half]

theorem itemsForUnhit_one_le (p : Precision) :
    (Harmonic.itemsForUnhit p.size 1 : ℝ) ≤ p.size * (Real.log p.size + Real.log 2) :=
  mul_le_mul_of_nonneg_left (Harmonic.number_sub_le_log p) (Nat.cast_nonneg _)

theorem linearEstimate_le_linearEstimate (fewer : unhit t' ≤ unhit t) (inside : unhit t ≤ p.size) :
    linearEstimate p t ≤ linearEstimate p t' := by
  by_cases none : unhit t = 0
  · have none' : unhit t' = 0 := Nat.le_zero.mp (none ▸ fewer)
    rw [linearEstimate_of_none none, linearEstimate_of_none none']
  · rw [linearEstimate_of_unhit none]
    by_cases none' : unhit t' = 0
    · rw [linearEstimate_of_none none']
      exact (Harmonic.itemsForUnhit_anti (Nat.one_le_iff_ne_zero.mpr none) inside).trans
        (itemsForUnhit_one_le p)
    · rw [linearEstimate_of_unhit none']
      exact Harmonic.itemsForUnhit_anti fewer inside

theorem hit_le_linearEstimate (inside : unhit t ≤ p.size) : (hit p t : ℝ) ≤ linearEstimate p t := by
  rw [hit, Nat.cast_sub inside]
  by_cases none : unhit t = 0
  · have two := Real.log_two_gt_d9
    have least : 2 ≤ p.size := (by decide : 2 ≤ 2 ^ 4).trans (Nat.pow_le_pow_right Nat.two_pos p.four_le)
    have least' : (2 : ℝ) ≤ p.size := by exact_mod_cast least
    have logarithm := Real.log_le_log two_pos least'
    rw [linearEstimate_of_none none, none, Nat.cast_zero, sub_zero]
    exact le_mul_of_one_le_right (Nat.cast_nonneg _) (by linarith)
  · rw [linearEstimate_of_unhit none]
    exact Harmonic.size_sub_le_itemsForUnhit inside

end Composite

end DistinctCount
