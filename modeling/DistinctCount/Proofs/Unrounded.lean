import Mathlib.Analysis.SpecialFunctions.Log.Basic
import DistinctCount.Proofs.Exactness

/-! Sketches that do not round. In an ordered field the definitions of this library are read with exact
arithmetic, so that what they say of an estimate holds of the formulas themselves. -/

namespace DistinctCount

/-- An ordered field, with a root and a logarithm of its own. -/
class Unrounded (α : Type) extends Field α, LinearOrder α, IsStrictOrderedRing α where
  sqrt : α → α
  log : α → α

/-- Constants stand for what they say, and operations are those of the field. -/
instance {α : Type} [Unrounded α] : Analytic α where
  ofNat n := n
  decimal mantissa places := mantissa / 10 ^ places
  halfPow exponent := ((2 : Nat) : α)⁻¹ ^ exponent
  decideLE := inferInstance
  decideLT := inferInstance
  sqrt := Unrounded.sqrt
  log := Unrounded.log

noncomputable instance : Unrounded ℝ where
  sqrt := Real.sqrt
  log := Real.log

namespace Unrounded

variable {α : Type} [Unrounded α] {values : List Nat}

@[simp] theorem ofNat_eq (n : Nat) : (Scalar.ofNat n : α) = n := rfl

theorem decimal_eq (mantissa places : Nat) : (Scalar.decimal mantissa places : α) = mantissa / 10 ^ places := rfl

theorem halfPow_eq (exponent : Nat) : (Scalar.halfPow exponent : α) = 2⁻¹ ^ exponent := rfl

theorem halfPow_pos (exponent : Nat) : (0 : α) < Scalar.halfPow exponent := by
  rw [halfPow_eq]
  positivity

theorem halfPow_le_one (exponent : Nat) : (Scalar.halfPow exponent : α) ≤ 1 := by
  rw [halfPow_eq]
  exact pow_le_one₀ (by positivity) (by norm_num)

theorem larger_eq (a b : α) : Scalar.larger a b = max a b := by
  unfold Scalar.larger
  split_ifs with less
  · exact (max_eq_left less.le).symm
  · exact (max_eq_right (not_lt.mp less)).symm
  · exact absurd le_rfl ‹_›

theorem sumOf_eq (values : List Nat) :
    (Tally.sumOf values : α) = (values.map (Scalar.halfPow : Nat → α)).sum := by
  induction values using List.reverseRecOn with
  | nil => exact Nat.cast_zero
  | append_singleton front last ih =>
    rw [Tally.sumOf_concat, ih]
    simp

/-- Both parts of a scanned tally make up the whole sum. -/
theorem sum_scan (tracked : Bool) (values : List Nat) :
    (Tally.scan tracked values : Tally α).sum = (values.map (Scalar.halfPow : Nat → α)).sum := by
  simp only [Tally.sum, Tally.scan, sumOf_eq]
  induction values with
  | nil => simp
  | cons value rest ih =>
    by_cases small : value < Tally.divide
    · simp [small, Nat.not_le_of_lt small, ← ih, add_assoc]
    · simp [small, Nat.le_of_not_lt small, ← ih, add_left_comm]

theorem sum_scan_pos (tracked : Bool) (nonempty : values ≠ []) :
    0 < (Tally.scan tracked values : Tally α).sum := by
  rw [sum_scan]
  refine List.sum_pos _ (fun summand member => ?_) (by simpa using nonempty)
  obtain ⟨value, _, rfl⟩ := List.mem_map.mp member
  exact halfPow_pos value

theorem sum_scan_le (tracked : Bool) (values : List Nat) :
    (Tally.scan tracked values : Tally α).sum ≤ values.length := by
  have bound := List.sum_le_card_nsmul (values.map (Scalar.halfPow : Nat → α)) 1 (fun summand member => by
    obtain ⟨value, _, rfl⟩ := List.mem_map.mp member
    exact halfPow_le_one value)
  rw [List.length_map, nsmul_one] at bound
  rwa [sum_scan]

end Unrounded

open Unrounded in
/-- Without rounding, no order of summands matters. -/
instance {α : Type} [Unrounded α] : Tally.ExactSums α where
  perm _ _ perm := by
    rw [sumOf_eq, sumOf_eq]
    exact (perm.map _).sum_eq
  sub _ _ := by
    rw [sumOf_eq, sumOf_eq, List.map_cons, List.sum_cons]
    exact add_sub_cancel_left _ _
  zeros _ := by
    rw [sumOf_eq, List.map_replicate, List.sum_replicate, halfPow_eq]
    simp

end DistinctCount
