import Mathlib.LinearAlgebra.Lagrange
import Mathlib.Tactic.ComputeDegree
import Mathlib.Tactic.IntervalCases
import DistinctCount.Proofs.Unrounded
import DistinctCount.Estimate.Interpolation

/-! Interpolation in ascending tables. The search ends at the interval of its argument, the cubic of a
window is the polynomial through its points, and a table that hardly bends is read without a dip, also
where one window gives way to the next. -/

namespace DistinctCount.Interpolation

open Polynomial

section Search

variable {α : Type} [LinearOrder α] {xs : Nat → α} {x : α} {low high size index other : Nat}

theorem lt_of_ascending (ascending : ∀ i, i + 1 < size → xs i < xs (i + 1)) (less : index < other)
    (inside : other < size) : xs index < xs other := by
  induction other, less using Nat.le_induction with
  | base => exact ascending index inside
  | succ other _ ih => exact (ih (Nat.lt_of_succ_lt inside)).trans (ascending other inside)

theorem le_of_ascending (ascending : ∀ i, i + 1 < size → xs i < xs (i + 1)) (le : index ≤ other)
    (inside : other < size) : xs index ≤ xs other := by
  rcases Nat.eq_or_lt_of_le le with rfl | less
  · exact le_rfl
  · exact (lt_of_ascending ascending less inside).le

theorem injOn_of_ascending (ascending : ∀ i, i + 1 < size → xs i < xs (i + 1)) :
    Set.InjOn xs (Finset.range size) := by
  intro i inside j inside' same
  rw [Finset.mem_coe, Finset.mem_range] at inside inside'
  rcases Nat.lt_trichotomy i j with less | equal | more
  · exact absurd same (lt_of_ascending ascending less inside').ne
  · exact equal
  · exact absurd same (lt_of_ascending ascending more inside).ne'

theorem bisect_spec (gap : low < high) (left : xs low ≤ x) (right : x < xs high) :
    low ≤ bisect xs x low high ∧ bisect xs x low high < high ∧ xs (bisect xs x low high) ≤ x ∧
      x < xs (bisect xs x low high + 1) := by
  fun_induction bisect xs x low high with
  | case1 low high wide middle below ih =>
    have inside : middle = low + (high - low) / 2 := rfl
    obtain ⟨least, most, left', right'⟩ := ih (by omega) below right
    exact ⟨by omega, most, left', right'⟩
  | case2 low high wide middle above ih =>
    have inside : middle = low + (high - low) / 2 := rfl
    obtain ⟨least, most, left', right'⟩ := ih (by omega) left (lt_of_not_ge above)
    exact ⟨least, by omega, left', right'⟩
  | case3 low high narrow =>
    have neighbours : high = low + 1 := by omega
    exact ⟨Nat.le_refl low, gap, left, neighbours ▸ right⟩

theorem straddle_spec (some : 2 ≤ size) (left : xs 0 ≤ x) (right : x < xs (size - 1)) :
    straddle xs size x + 1 < size ∧ xs (straddle xs size x) ≤ x ∧ x < xs (straddle xs size x + 1) := by
  obtain ⟨_, most, left', right'⟩ := bisect_spec (show 0 < size - 1 by omega) left right
  exact ⟨Nat.add_lt_of_lt_sub most, left', right'⟩

theorem straddle_eq (ascending : ∀ i, i + 1 < size → xs i < xs (i + 1)) (inside : index + 1 < size)
    (left : xs index ≤ x) (right : x < xs (index + 1)) : straddle xs size x = index := by
  have below {i j : Nat} (le : i ≤ j) (within : j < size) : xs i ≤ xs j := le_of_ascending ascending le within
  have first : xs 0 ≤ x := (below (Nat.zero_le index) (by omega)).trans left
  have last : x < xs (size - 1) := right.trans_le (below (by omega) (by omega))
  obtain ⟨within, left', right'⟩ := straddle_spec (by omega) first last
  rcases Nat.lt_trichotomy (straddle xs size x) index with less | same | more
  · exact absurd (right'.trans_le (below less (by omega))) (not_lt.mpr left)
  · exact same
  · exact absurd (right.trans_le (below more (by omega))) (not_lt.mpr left')

theorem windowStart_spec (four : 4 ≤ size) (inside : index + 1 < size) :
    windowStart index size + 4 ≤ size ∧ windowStart index size ≤ index ∧
      index + 1 ≤ windowStart index size + 3 := by
  unfold windowStart
  split_ifs <;> omega

end Search

section Differences

variable {α : Type} [Field α]

/-- The divided difference of `order + 1` points from `start` on. -/
def difference (xs ys : Nat → α) : (order start : Nat) → α
  | 0, start => ys start
  | order + 1, start => (difference xs ys order (start + 1) - difference xs ys order start) /
      (xs (start + order + 1) - xs start)

variable [LinearOrder α]

/-- Four points whose slope outweighs the changes of slope. -/
def Gentle (xs ys : Nat → α) : Prop :=
  2 * (xs 3 - xs 0) * |difference xs ys 2 0| + 3 * (xs 3 - xs 0) ^ 2 * |difference xs ys 3 0| <
    difference xs ys 1 0

instance (xs ys : Nat → α) : Decidable (Gentle xs ys) := inferInstanceAs (Decidable (_ < _))

/-- A table of rational numbers is as gentle in any other ordered field. -/
theorem Gentle.cast {β : Type} [Field β] [LinearOrder β] [IsStrictOrderedRing β] {xs ys : Nat → ℚ}
    (gentle : Gentle xs ys) : Gentle (fun i => (xs i : β)) (fun i => (ys i : β)) := by
  have differences (order start : Nat) :
      difference (fun i => (xs i : β)) (fun i => (ys i : β)) order start = (difference xs ys order start : ℚ) := by
    induction order generalizing start with
    | zero => rfl
    | succ order ih =>
      simp only [difference, ih]
      push_cast
      rfl
  unfold Gentle at gentle ⊢
  simp only [differences]
  exact_mod_cast gentle

end Differences

variable {α : Type} [Unrounded α] {xs ys : Nat → α} {a b x y : α} {size index other : Nat}

theorem cubic_eq_eval (xs ys : Nat → α) (x : α) :
    cubic xs ys x = (Lagrange.interpolate (Finset.range 4) xs ys).eval x := by
  have four : Finset.range 4 = {0, 1, 2, 3} := rfl
  simp only [Lagrange.interpolate_apply, Lagrange.basis, Lagrange.basisDivisor, eval_finsetSum, eval_mul,
    eval_C, eval_prod, eval_sub, eval_X, four]
  simp [cubic, term, Finset.sum_insert, Finset.prod_insert, Finset.erase_insert_eq_erase,
    Finset.erase_eq_of_notMem, Finset.erase_insert_of_ne]
  ring

theorem cubic_of_polynomial (distinct : Set.InjOn xs (Finset.range 4)) {f : α[X]} (degree : f.degree < 4)
    (samples : ∀ i < 4, f.eval (xs i) = ys i) (x : α) : cubic xs ys x = f.eval x := by
  rw [cubic_eq_eval, ← Lagrange.eq_interpolate_of_eval_eq ys distinct degree
    (fun i member => samples i (Finset.mem_range.mp member))]

theorem cubic_node (distinct : Set.InjOn xs (Finset.range 4)) (inside : index < 4) :
    cubic xs ys (xs index) = ys index := by
  rw [cubic_eq_eval]
  exact Lagrange.eval_interpolate_at_node ys distinct (Finset.mem_range.mpr inside)

/-- The cubic in the form of Newton, with one divided difference for each point. -/
theorem cubic_eq_newton (distinct : Set.InjOn xs (Finset.range 4)) (x : α) :
    cubic xs ys x = difference xs ys 0 0 + (x - xs 0) * (difference xs ys 1 0
      + (x - xs 1) * (difference xs ys 2 0 + (x - xs 2) * difference xs ys 3 0)) := by
  let newton : α[X] := C (difference xs ys 0 0) + (X - C (xs 0)) * (C (difference xs ys 1 0)
    + (X - C (xs 1)) * (C (difference xs ys 2 0) + (X - C (xs 2)) * C (difference xs ys 3 0)))
  have apart {i j : Nat} (ne : i ≠ j) (inside : i < 4) (inside' : j < 4) : xs i - xs j ≠ 0 :=
    fun same => ne (distinct (Finset.mem_coe.mpr (Finset.mem_range.mpr inside))
      (Finset.mem_coe.mpr (Finset.mem_range.mpr inside')) (sub_eq_zero.mp same))
  have degree : newton.degree < 4 := by
    have bound : newton.degree ≤ 3 := by
      simp only [newton]
      compute_degree
    exact lt_of_le_of_lt bound (by decide)
  rw [cubic_of_polynomial distinct degree (fun i inside => ?_)]
  · simp [newton]
  · have h10 := apart (i := 1) (j := 0) (by decide) (by decide) (by decide)
    have h20 := apart (i := 2) (j := 0) (by decide) (by decide) (by decide)
    have h21 := apart (i := 2) (j := 1) (by decide) (by decide) (by decide)
    have h30 := apart (i := 3) (j := 0) (by decide) (by decide) (by decide)
    have h31 := apart (i := 3) (j := 1) (by decide) (by decide) (by decide)
    have h32 := apart (i := 3) (j := 2) (by decide) (by decide) (by decide)
    interval_cases i <;> simp [newton, difference] <;> field_simp <;> ring

theorem cubic_lt_cubic (ascending : ∀ i, i + 1 < 4 → xs i < xs (i + 1)) (gentle : Gentle xs ys)
    (left : xs 0 ≤ a) (less : a < b) (right : b ≤ xs 3) : cubic xs ys a < cubic xs ys b := by
  have distinct := injOn_of_ascending ascending
  have first := ascending 0 (by decide)
  have second := ascending 1 (by decide)
  have third := ascending 2 (by decide)
  let span := xs 3 - xs 0
  let linear := a + b - xs 0 - xs 1
  let quadratic := (b - xs 0) * (b - xs 1) + (a - xs 2) * linear
  have slope : cubic xs ys b - cubic xs ys a = (b - a) * (difference xs ys 1 0 +
      difference xs ys 2 0 * linear + difference xs ys 3 0 * quadratic) := by
    rw [cubic_eq_newton distinct, cubic_eq_newton distinct]
    simp only [linear, quadratic]
    ring
  have linear_le : |linear| ≤ 2 * span := by
    rw [abs_le]
    constructor <;> simp only [linear, span] <;> linarith
  have quadratic_le : |quadratic| ≤ 3 * span ^ 2 := by
    have far : |b - xs 0| ≤ span ∧ |b - xs 1| ≤ span ∧ |a - xs 2| ≤ span := by
      refine ⟨?_, ?_, ?_⟩ <;> rw [abs_le] <;> constructor <;> simp only [span] <;> linarith
    obtain ⟨zeroth, one, two⟩ := far
    have wide : 0 ≤ span := (abs_nonneg _).trans zeroth
    calc |quadratic| ≤ |b - xs 0| * |b - xs 1| + |a - xs 2| * |linear| := by
          rw [← abs_mul, ← abs_mul]
          exact abs_add_le _ _
      _ ≤ span * span + span * (2 * span) := by gcongr
      _ = 3 * span ^ 2 := by ring
  have bent : |difference xs ys 2 0 * linear| ≤ |difference xs ys 2 0| * (2 * span) := by
    rw [abs_mul]
    gcongr
  have bent' : |difference xs ys 3 0 * quadratic| ≤ |difference xs ys 3 0| * (3 * span ^ 2) := by
    rw [abs_mul]
    gcongr
  have rising : 0 < difference xs ys 1 0 + difference xs ys 2 0 * linear +
      difference xs ys 3 0 * quadratic := by
    have enough : 2 * span * |difference xs ys 2 0| + 3 * span ^ 2 * |difference xs ys 3 0| <
        difference xs ys 1 0 := gentle
    have below := neg_le_of_abs_le bent
    have below' := neg_le_of_abs_le bent'
    linarith
  exact sub_pos.mp (slope ▸ mul_pos (sub_pos.mpr less) rising)

/-- The cubic that is read in an interval of a table. -/
def piece (xs ys : Nat → α) (size index : Nat) (x : α) : α :=
  cubic (fun i => xs (windowStart index size + i)) (fun i => ys (windowStart index size + i)) x

theorem interpolate_last (xs ys : Nat → α) (size : Nat) :
    interpolate xs ys size (xs (size - 1)) = ys (size - 1) := if_pos ⟨le_rfl, le_rfl⟩

section

variable (ascending : ∀ i, i + 1 < size → xs i < xs (i + 1))

include ascending

theorem window_node (ys : Nat → α) {start : Nat} (most : start + 4 ≤ size) (least : start ≤ other)
    (enough : other < start + 4) :
    cubic (fun i => xs (start + i)) (fun i => ys (start + i)) (xs other) = ys other := by
  obtain ⟨i, rfl⟩ : ∃ i, other = start + i := Nat.exists_eq_add_of_le least
  have rise (j : Nat) (within : j + 1 < 4) : xs (start + j) < xs (start + (j + 1)) :=
    ascending _ (by omega)
  have distinct : Set.InjOn (fun i => xs (start + i)) (Finset.range 4) := injOn_of_ascending rise
  exact cubic_node distinct (by omega)

theorem piece_node (four : 4 ≤ size) (ys : Nat → α) (inside : index + 1 < size)
    (near : other = index ∨ other = index + 1) : piece xs ys size index (xs other) = ys other := by
  obtain ⟨most, least, enough⟩ := windowStart_spec four inside
  exact window_node ascending ys most (by omega) (by omega)

/-- In an interval the table is read by the cubic of its window. -/
theorem interpolate_eq_piece (inside : index + 1 < size) (left : xs index ≤ x) (right : x < xs (index + 1)) :
    interpolate xs ys size x = piece xs ys size index x := by
  have last : x < xs (size - 1) := right.trans_le (le_of_ascending ascending (by omega) (by omega))
  rw [interpolate, if_neg (fun both => not_le.mpr last both.2), straddle_eq ascending inside left right]
  rfl

end

/-- An ascending table each window of which is gentle. -/
structure Smooth (xs ys : Nat → α) (size : Nat) : Prop where
  four : 4 ≤ size
  ascending : ∀ i, i + 1 < size → xs i < xs (i + 1)
  gentle : ∀ start, start + 4 ≤ size → Gentle (fun i => xs (start + i)) (fun i => ys (start + i))

section

variable (smooth : Smooth xs ys size)

include smooth

theorem piece_lt_piece (inside : index + 1 < size) (left : xs index ≤ a) (less : a < b)
    (right : b ≤ xs (index + 1)) : piece xs ys size index a < piece xs ys size index b := by
  obtain ⟨most, least, enough⟩ := windowStart_spec smooth.four inside
  refine cubic_lt_cubic (fun i within => smooth.ascending _ (by omega)) (smooth.gentle _ most) ?_ less ?_
  · exact (le_of_ascending smooth.ascending (by omega) (by omega)).trans left
  · exact right.trans (le_of_ascending smooth.ascending enough (by omega))

theorem ordinate_lt_ordinate (inside : index + 1 < size) : ys index < ys (index + 1) := by
  have start := piece_node smooth.ascending smooth.four ys inside (.inl rfl)
  have stop := piece_node smooth.ascending smooth.four ys inside (.inr rfl)
  rw [← start, ← stop]
  exact piece_lt_piece smooth inside le_rfl (smooth.ascending index inside) le_rfl

theorem ordinate_le_interpolate (inside : index < size) (left : xs index ≤ x) (right : x ≤ xs (size - 1)) :
    ys index ≤ interpolate xs ys size x := by
  have rise (i : Nat) (within : i + 1 < size) : ys i < ys (i + 1) := ordinate_lt_ordinate smooth within
  have four := smooth.four
  rcases right.eq_or_lt with rfl | inner
  · rw [interpolate_last]
    exact le_of_ascending rise (by omega) (by omega)
  · have start := (le_of_ascending smooth.ascending (Nat.zero_le index) inside).trans left
    obtain ⟨within, left', right'⟩ := straddle_spec (by omega) start inner
    have behind : index ≤ straddle xs size x := by
      by_contra ahead
      exact absurd (right'.trans_le (le_of_ascending smooth.ascending (by omega) inside)) (not_lt.mpr left)
    rw [interpolate_eq_piece smooth.ascending within left' right']
    refine (le_of_ascending rise behind (by omega)).trans ?_
    rw [← piece_node smooth.ascending smooth.four ys within (.inl rfl)]
    rcases left'.eq_or_lt with same | beyond
    · rw [same]
    · exact (piece_lt_piece smooth within le_rfl beyond right'.le).le

theorem interpolate_lt_interpolate (left : xs 0 ≤ a) (less : a < b) (right : b ≤ xs (size - 1)) :
    interpolate xs ys size a < interpolate xs ys size b := by
  have four := smooth.four
  obtain ⟨within, left', right'⟩ := straddle_spec (by omega) left (less.trans_le right)
  rw [interpolate_eq_piece smooth.ascending within left' right']
  rcases lt_or_ge b (xs (straddle xs size a + 1)) with near | far
  · rw [interpolate_eq_piece smooth.ascending within (left'.trans less.le) near]
    exact piece_lt_piece smooth within left' less near.le
  · calc piece xs ys size (straddle xs size a) a
        < piece xs ys size (straddle xs size a) (xs (straddle xs size a + 1)) :=
          piece_lt_piece smooth within left' right' le_rfl
      _ = ys (straddle xs size a + 1) := piece_node smooth.ascending smooth.four ys within (.inr rfl)
      _ ≤ interpolate xs ys size b := ordinate_le_interpolate smooth within far right

end

end DistinctCount.Interpolation
