import Mathlib.Topology.Algebra.Order.Field
import Mathlib.Topology.Algebra.Polynomial
import DistinctCount.Proofs.Guards
import DistinctCount.Proofs.Interpolating

namespace DistinctCount.Interpolation

open Polynomial

section Guarded

variable {α : Type}

/-- A coordinate of a point of the table. There is none behind the end. -/
def read? (xs : Nat → α) (size index : Nat) : Option α := if index < size then some (xs index) else none

/-- The first of the four points around an interval, by subtractions that must not go below zero. -/
def windowStart? (index size : Nat) : Option Nat :=
  if index = 0 then some 0
  else do
    if (← Nat.psub size 2) ≤ index then Nat.psub size 4 else Nat.psub index 1

section

variable [LE α] [DecidableLE α]

/-- Halves a gap as long as the budget lasts, and reads only points that the table has. -/
def bisect? (xs : Nat → α) (size : Nat) (x : α) : (budget low high : Nat) → Option Nat
  | 0, _, _ => none
  | budget + 1, low, high =>
    if low + 1 < high then do
      let middle := low + (← Nat.psub high low) / 2
      if (← read? xs size middle) ≤ x then bisect? xs size x budget middle high
      else bisect? xs size x budget low middle
    else some low

variable [LT α] [DecidableLT α]

/-- The interval of an abscissa, which has to lie in one. -/
def straddle? (xs : Nat → α) (size : Nat) (x : α) : Option Nat := do
  let last ← Nat.psub size 1
  if (← read? xs size 0) ≤ x ∧ x < (← read? xs size last) then bisect? xs size x (size.log2 + 2) 0 last
  else none

end

variable [Scalar α]

/-- The last abscissa, if the table has enough points and the argument lies between the ends. -/
def admit? (xs : Nat → α) (size : Nat) (x : α) : Option α := do
  let right ← read? xs size (← Nat.psub size 1)
  if 4 ≤ size ∧ (← read? xs size 0) ≤ x ∧ x ≤ right then some right else none

/-- The first of the four points that an argument is read from, all of them points of the table. -/
def window? (xs : Nat → α) (size : Nat) (x : α) : Option Nat := do
  let start ← windowStart? (← straddle? xs size x) size
  if start + 4 ≤ size then some start else none

/-- The value at `x` of the cubic through the four points from `start` on. -/
def through (xs ys : Nat → α) (start : Nat) (x : α) : α :=
  cubic (fun i => xs (start + i)) (fun i => ys (start + i)) x

def interpolate? (xs ys : Nat → α) (size : Nat) (x : α) : Option α := do
  let right ← admit? xs size x
  if x ≤ right ∧ right ≤ x then read? ys size (← Nat.psub size 1)
  else return through xs ys (← window? xs size x) x

/-- Ordinates that are multiples of a stride are computed when they are needed. -/
def interpolateEven? (xs : Nat → α) (stride : α) (size : Nat) (x : α) : Option α := do
  let right ← admit? xs size x
  if x ≤ right ∧ right ≤ x then return stride * Scalar.ofNat (← Nat.psub size 1)
  else
    let start ← window? xs size x
    let points (i : Nat) := xs (start + i)
    return cubic points (fun i => stride * Scalar.ofNat (start + i)) x

end Guarded

section Search

variable {α : Type} {xs : Nat → α} {x : α} {low high size index budget : Nat}

theorem read?_eq (inside : index < size) : read? xs size index = some (xs index) := if_pos inside

theorem windowStart?_eq (four : 4 ≤ size) (index : Nat) :
    windowStart? index size = some (windowStart index size) := by
  rw [windowStart?, windowStart]
  by_cases first : index = 0
  · rw [if_pos first, if_pos first]
  · have end? : Nat.psub size 2 = some (size - 2) := Nat.psub_eq_sub (by omega)
    rw [if_neg first, if_neg first, end?, Option.bind_eq_bind, Option.bind_some]
    by_cases late : size - 2 ≤ index
    · rw [if_pos late, if_pos late]
      exact Nat.psub_eq_sub four
    · rw [if_neg late, if_neg late]
      exact Nat.psub_eq_sub (Nat.one_le_iff_ne_zero.mpr first)

/-- The window of an interval has as many points before it as behind it, unless the table ends there. -/
theorem windowStart_centred (before : 1 ≤ index) (behind : index + 3 ≤ size) :
    windowStart index size + 1 = index := by
  rw [windowStart, if_neg (by omega), if_neg (by omega), Nat.sub_add_cancel before]

variable [LinearOrder α]

/-- A gap that is halved often enough closes: one step of the budget for each halving, and one at the end. -/
theorem bisect?_eq (gap : low < high) (inside : high < size) (few : high - low ≤ 2 ^ budget) :
    bisect? xs size x (budget + 1) low high = some (bisect xs x low high) := by
  induction budget generalizing low high with
  | zero =>
    have narrow : ¬ low + 1 < high := by omega
    rw [bisect?, if_neg narrow, bisect, if_neg narrow]
  | succ budget ih =>
    rw [Nat.pow_succ] at few
    rw [bisect?, bisect]
    by_cases wide : low + 1 < high
    · have less : Nat.psub high low = some (high - low) := Nat.psub_eq_sub gap.le
      have point : read? xs size (low + (high - low) / 2) = some (xs (low + (high - low) / 2)) :=
        read?_eq (by omega)
      rw [if_pos wide, if_pos wide, less, Option.bind_eq_bind, Option.bind_some]
      dsimp only
      rw [point, Option.bind_eq_bind, Option.bind_some]
      split_ifs
      · exact ih (by omega) inside (by omega)
      · exact ih (by omega) (by omega) (by omega)
    · rw [if_neg wide, if_neg wide]

theorem straddle?_eq (four : 4 ≤ size) (left : xs 0 ≤ x) (right : x < xs (size - 1)) :
    straddle? xs size x = some (straddle xs size x) := by
  have last : Nat.psub size 1 = some (size - 1) := Nat.psub_eq_sub (by omega)
  have few : size - 1 - 0 ≤ 2 ^ (size.log2 + 1) := by
    have := Nat.lt_log2_self (n := size)
    omega
  rw [straddle?, last, Option.bind_eq_bind, Option.bind_some, read?_eq (by omega), Option.bind_eq_bind,
    Option.bind_some, read?_eq (by omega), Option.bind_some, if_pos ⟨left, right⟩]
  exact bisect?_eq (by omega) (by omega) few

/-- The search in an ascending table of at least four points ends, reads points of the table only and finds the
one interval that contains its argument. The window of any interval lies in the table and contains the
interval, in its middle wherever there are points enough on both sides. -/
theorem straddle_unique (four : 4 ≤ size) (ascending : ∀ i, i + 1 < size → xs i < xs (i + 1))
    (left : xs 0 ≤ x) (right : x < xs (size - 1)) :
    (∃ index, straddle? xs size x = some index ∧ straddle xs size x = index ∧
      ∀ j, (j + 1 < size ∧ xs j ≤ x ∧ x < xs (j + 1)) ↔ j = index) ∧
    ∀ index, index + 1 < size → ∃ start, windowStart? index size = some start ∧
      windowStart index size = start ∧ start + 4 ≤ size ∧ start ≤ index ∧ index + 1 ≤ start + 3 ∧
      (1 ≤ index → index ≤ size - 3 → start + 1 = index) := by
  constructor
  · refine ⟨straddle xs size x, straddle?_eq four left right, rfl, ?_⟩
    intro j
    constructor
    · rintro ⟨inside, left', right'⟩
      exact (straddle_eq ascending inside left' right').symm
    · rintro rfl
      exact straddle_spec (by omega) left right
  · intro index inside
    obtain ⟨most, least, enough⟩ := windowStart_spec four inside
    refine ⟨windowStart index size, windowStart?_eq four index, rfl, most, least, enough, ?_⟩
    intro before behind
    exact windowStart_centred before (by omega)

/-- An argument in the last interval of seven points, which has a point to its right only. -/
theorem straddle_unique_powers :
    let xs : Nat → Nat := fun i => 2 ^ i
    (∀ i, i + 1 < 7 → xs i < xs (i + 1)) ∧ (xs 0 ≤ 63 ∧ 63 < xs 6) ∧ straddle? xs 7 63 = some 5 ∧
      windowStart? 5 7 = some 3 ∧ windowStart? 4 7 = some 3 := by
  intro xs
  have rise : ∀ i, i + 1 < 7 → xs i < xs (i + 1) :=
    fun i _ => Nat.pow_lt_pow_right (by decide) (Nat.lt_succ_self i)
  have left : xs 0 ≤ 63 := by decide
  have right : 63 < xs (7 - 1) := by decide
  obtain ⟨⟨index, found, _, only⟩, windows⟩ := straddle_unique (by decide) rise left right
  have fifth : 5 = index := (only 5).mp (by decide)
  obtain ⟨start, taken, _, most, _, enough, _⟩ := windows 5 (by decide)
  obtain ⟨start', taken', _, _, _, _, centred⟩ := windows 4 (by decide)
  have third : start = 3 := by omega
  have third' : start' + 1 = 4 := centred (by decide) (by decide)
  refine ⟨rise, ⟨left, right⟩, fifth ▸ found, third ▸ taken, ?_⟩
  rw [taken', Nat.succ.inj third']

end Search

section Exact

variable {α : Type} [Unrounded α] {xs ys : Nat → α} {x : α} {size index : Nat}

theorem admit?_eq (four : 4 ≤ size) (left : xs 0 ≤ x) (right : x ≤ xs (size - 1)) :
    admit? xs size x = some (xs (size - 1)) := by
  have last : Nat.psub size 1 = some (size - 1) := Nat.psub_eq_sub (by omega)
  rw [admit?, last, Option.bind_eq_bind, Option.bind_some, read?_eq (by omega), Option.bind_eq_bind,
    Option.bind_some, read?_eq (by omega), Option.bind_some, if_pos ⟨four, left, right⟩]

theorem window?_eq (four : 4 ≤ size) (left : xs 0 ≤ x) (right : x < xs (size - 1)) :
    window? xs size x = some (windowStart (straddle xs size x) size) := by
  have inside := (straddle_spec (by omega) left right).1
  have most := (windowStart_spec four inside).1
  rw [window?, straddle?_eq four left right, Option.bind_eq_bind, Option.bind_some, windowStart?_eq four,
    Option.bind_some, if_pos most]

theorem interpolate?_eq (four : 4 ≤ size) (ys : Nat → α) (left : xs 0 ≤ x) (right : x ≤ xs (size - 1)) :
    interpolate? xs ys size x = some (interpolate xs ys size x) := by
  rw [interpolate?, admit?_eq four left right, Option.bind_eq_bind, Option.bind_some, interpolate]
  by_cases last : xs (size - 1) ≤ x
  · have less : Nat.psub size 1 = some (size - 1) := Nat.psub_eq_sub (by omega)
    rw [if_pos ⟨right, last⟩, if_pos ⟨right, last⟩, less, Option.bind_eq_bind, Option.bind_some,
      read?_eq (by omega)]
  · rw [if_neg (fun both => last both.2), if_neg (fun both => last both.2),
      window?_eq four left (lt_of_not_ge last)]
    rfl

theorem interpolateEven?_eq (four : 4 ≤ size) (stride : α) (left : xs 0 ≤ x) (right : x ≤ xs (size - 1)) :
    interpolateEven? xs stride size x = some (interpolate xs (fun i => stride * i) size x) := by
  rw [interpolateEven?, admit?_eq four left right, Option.bind_eq_bind, Option.bind_some, interpolate]
  by_cases last : xs (size - 1) ≤ x
  · have less : Nat.psub size 1 = some (size - 1) := Nat.psub_eq_sub (by omega)
    rw [if_pos ⟨right, last⟩, if_pos ⟨right, last⟩, less]
    rfl
  · rw [if_neg (fun both => last both.2), if_neg (fun both => last both.2),
      window?_eq four left (lt_of_not_ge last)]
    rfl

variable (four : 4 ≤ size) (ascending : ∀ i, i + 1 < size → xs i < xs (i + 1))

include four ascending

/-- In an interval, both of its ends included, the table is read by the cubic of the window. -/
theorem interpolate_eq_through (ys : Nat → α) (inside : index + 1 < size) (left : xs index ≤ x)
    (right : x ≤ xs (index + 1)) :
    interpolate xs ys size x = through xs ys (windowStart index size) x := by
  rcases right.lt_or_eq with inner | rfl
  · exact interpolate_eq_piece ascending inside left inner
  · have here : through xs ys (windowStart index size) (xs (index + 1)) = ys (index + 1) :=
      piece_node ascending four ys inside (.inr rfl)
    rw [here]
    rcases Nat.lt_or_ge (index + 2) size with more | last
    · rw [interpolate_eq_piece ascending more le_rfl (ascending _ more)]
      exact piece_node ascending four ys more (.inl rfl)
    · have ends : index + 1 = size - 1 := by omega
      rw [ends, interpolate_last]

theorem interpolate_node (ys : Nat → α) (inside : index < size) : interpolate xs ys size (xs index) = ys index := by
  rcases Nat.lt_or_ge (index + 1) size with more | last
  · rw [interpolate_eq_piece ascending more le_rfl (ascending index more)]
    exact piece_node ascending four ys more (.inl rfl)
  · have ends : index = size - 1 := by omega
    rw [ends, interpolate_last]

theorem exists_interval (left : xs 0 ≤ x) (right : x ≤ xs (size - 1)) :
    ∃ index, index + 1 < size ∧ xs index ≤ x ∧ x ≤ xs (index + 1) := by
  rcases right.lt_or_eq with inner | rfl
  · obtain ⟨inside, left', right'⟩ := straddle_spec (by omega) left inner
    exact ⟨_, inside, left', right'.le⟩
  · have ends : size - 2 + 1 = size - 1 := by omega
    refine ⟨size - 2, by omega, le_of_ascending ascending (by omega) (by omega), ?_⟩
    rw [ends]

theorem interpolate_polynomial {f : α[X]} (degree : f.natDegree ≤ 3)
    (samples : ∀ i < size, ys i = f.eval (xs i)) (left : xs 0 ≤ x) (right : x ≤ xs (size - 1)) :
    interpolate xs ys size x = f.eval x := by
  obtain ⟨index, inside, left', right'⟩ := exists_interval four ascending left right
  obtain ⟨most, _, _⟩ := windowStart_spec four inside
  have rise (i : Nat) (within : i + 1 < 4) :
      xs (windowStart index size + i) < xs (windowStart index size + (i + 1)) := ascending _ (by omega)
  have distinct : Set.InjOn (fun i => xs (windowStart index size + i)) (Finset.range 4) :=
    injOn_of_ascending rise
  have small : f.degree < 4 := lt_of_le_of_lt (degree_le_of_natDegree_le degree) (by decide)
  rw [interpolate_eq_through four ascending ys inside left' right']
  exact cubic_of_polynomial distinct small (fun i within => (samples _ (by omega)).symm) x

theorem continuousOn_interpolate [TopologicalSpace α] [OrderTopology α] (ys : Nat → α) (inside : index < size) :
    ContinuousOn (interpolate xs ys size) (Set.Icc (xs 0) (xs index)) := by
  induction index with
  | zero =>
    rw [Set.Icc_self]
    exact continuousOn_singleton _ _
  | succ index ih =>
    have earlier := ih (Nat.lt_of_succ_lt inside)
    have first : xs 0 ≤ xs index := le_of_ascending ascending (Nat.zero_le index) (Nat.lt_of_succ_lt inside)
    have next : xs index ≤ xs (index + 1) := (ascending index inside).le
    have piecewise : ContinuousOn (interpolate xs ys size) (Set.Icc (xs index) (xs (index + 1))) := by
      have smooth : Continuous (through xs ys (windowStart index size)) := by
        unfold through
        simp only [cubic_eq_eval]
        exact Polynomial.continuous _
      refine smooth.continuousOn.congr ?_
      rintro x ⟨left, right⟩
      exact interpolate_eq_through four ascending ys inside left right
    rw [← Set.Icc_union_Icc_eq_Icc first next]
    exact earlier.union_of_isClosed piecewise isClosed_Icc isClosed_Icc

/-- Without rounding, a table of at least four ascending abscissas is read as follows. Samples of a polynomial of
degree three or less give the polynomial back everywhere between the ends. Whatever the ordinates are, each
point is given back, from whichever four points around it, so that two windows meet at the point between their
intervals and what is read is continuous from the first point to the last. Multiples of a stride are read as a
table of them. No point is read outside of the table. -/
theorem interpolate_exact :
    (∀ (ys : Nat → α) (x : α), xs 0 ≤ x → x ≤ xs (size - 1) →
      interpolate? xs ys size x = some (interpolate xs ys size x)) ∧
    (∀ (f : α[X]) (ys : Nat → α), f.natDegree ≤ 3 → (∀ i < size, ys i = f.eval (xs i)) →
      ∀ x, xs 0 ≤ x → x ≤ xs (size - 1) → interpolate xs ys size x = f.eval x) ∧
    (∀ ys : Nat → α,
      (∀ i < size, interpolate xs ys size (xs i) = ys i ∧
        ∀ start, start + 4 ≤ size → start ≤ i → i < start + 4 → through xs ys start (xs i) = ys i) ∧
      (∀ i, i + 1 < size → ∀ x, xs i ≤ x → x ≤ xs (i + 1) →
        interpolate xs ys size x = through xs ys (windowStart i size) x) ∧
      ∀ [TopologicalSpace α] [OrderTopology α],
        ContinuousOn (interpolate xs ys size) (Set.Icc (xs 0) (xs (size - 1)))) ∧
    ∀ stride x : α, xs 0 ≤ x → x ≤ xs (size - 1) →
      interpolateEven? xs stride size x = interpolate? xs (fun i => stride * i) size x ∧
      interpolateEven? xs stride size x = some (interpolateEven xs stride size x) := by
  refine ⟨?_, ?_, ?_, ?_⟩
  · intro ys x left right
    exact interpolate?_eq four ys left right
  · intro f ys degree samples x left right
    exact interpolate_polynomial four ascending degree samples left right
  · intro ys
    refine ⟨?_, ?_, ?_⟩
    · intro i inside
      constructor
      · exact interpolate_node four ascending ys inside
      · intro start most least enough
        exact window_node ascending ys most least enough
    · intro i inside x left right
      exact interpolate_eq_through four ascending ys inside left right
    · intro _ _
      exact continuousOn_interpolate four ascending ys (by omega)
  · intro stride x left right
    have even := interpolateEven?_eq four stride left right
    exact ⟨even.trans (interpolate?_eq four _ left right).symm, even⟩

end Exact

/-- No root and no logarithm is taken in a table: any function may stand in for those of rational numbers. -/
local instance : Unrounded ℚ where
  sqrt x := x
  log x := x

/-- Six points of a cubic polynomial, read in an inner interval, in the last one and at the end. -/
theorem interpolate_exact_six :
    let xs : Nat → ℚ := fun i => if i = 0 then 0 else 2 ^ (i - 1)
    let f : ℚ[X] := 2 * X ^ 3 - X ^ 2 + 3
    (∀ i, i + 1 < 6 → xs i < xs (i + 1)) ∧ f.natDegree ≤ 3 ∧
      interpolate? xs (fun i => f.eval (xs i)) 6 (3 / 2) = some (15 / 2) ∧
      interpolate? xs (fun i => f.eval (xs i)) 6 12 = some 3315 ∧
      interpolate? xs (fun i => f.eval (xs i)) 6 16 = some 7939 ∧
      interpolateEven? xs 5 6 8 = some 20 := by
  intro xs f
  have rise : ∀ i, i + 1 < 6 → xs i < xs (i + 1) := by
    intro i inside
    have few : i < 5 := Nat.lt_of_succ_lt_succ inside
    interval_cases i <;> norm_num [xs]
  have degree : f.natDegree ≤ 3 := by
    simp only [f]
    compute_degree
  have shown (x : ℚ) : f.eval x = 2 * x ^ 3 - x ^ 2 + 3 := by simp [f]
  obtain ⟨reads, gives, points, even⟩ := interpolate_exact (by decide : 4 ≤ 6) rise
  have sampled {x : ℚ} (left : 0 ≤ x) (right : x ≤ 16) :
      interpolate? xs (fun i => f.eval (xs i)) 6 x = some (2 * x ^ 3 - x ^ 2 + 3) := by
    have right' : x ≤ xs (6 - 1) := right.trans (by norm_num [xs])
    rw [reads _ x left right', gives f _ degree (fun _ _ => rfl) x left right', shown]
  refine ⟨rise, degree, ?_, ?_, ?_, ?_⟩
  · rw [sampled (by norm_num) (by norm_num)]
    norm_num
  · rw [sampled (by norm_num) (by norm_num)]
    norm_num
  · rw [sampled (by norm_num) (by norm_num)]
    norm_num
  · have fourth : xs 4 = 8 := by norm_num [xs]
    have left : xs 0 ≤ 8 := by norm_num [xs]
    have right : (8 : ℚ) ≤ xs (6 - 1) := by norm_num [xs]
    have node := ((points (fun i => 5 * (i : ℚ))).1 4 (by decide)).1
    rw [fourth] at node
    rw [(even 5 8 left right).1, reads _ 8 left right, node]
    norm_num

end DistinctCount.Interpolation
