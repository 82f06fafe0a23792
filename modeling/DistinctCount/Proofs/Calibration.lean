import DistinctCount.Proofs.Interpolating
import DistinctCount.Estimate.Composite

namespace DistinctCount

namespace Interpolation

section

variable {α : Type} [Unrounded α] {xs ys : Nat → α} {stride : α}

/-- Even ordinates rise at nearly the same slope over gaps of nearly the same length. -/
theorem slopes_near {near far : α} (rise : 0 < stride) (positive : 0 < near) (positive' : 0 < far)
    (longer : 30 * far ≤ 31 * near) (shorter : 30 * near ≤ 31 * far) :
    |stride / far - stride / near| ≤ stride / near / 30 := by
  have slope : 0 < stride / near := div_pos rise positive
  have back : stride / near * near = stride := div_mul_cancel₀ stride positive.ne'
  have upper : stride / far ≤ 31 / 30 * (stride / near) := by
    rw [div_le_iff₀ positive']
    linarith [mul_le_mul_of_nonneg_left shorter slope.le]
  have lower : 29 / 30 * (stride / near) ≤ stride / far := by
    rw [le_div_iff₀ positive']
    linarith [mul_le_mul_of_nonneg_left longer slope.le, mul_pos slope positive']
  rw [abs_le]
  constructor <;> linarith

/-- A change of slope over half a span or more bends the whole span by at most twice as much. -/
theorem mul_abs_div_le {change span half : α} (positive : 0 < half) (most : span ≤ 2 * half) :
    span * |change / half| ≤ 2 * |change| := by
  rw [abs_div, abs_of_pos positive, mul_div_assoc', div_le_iff₀ positive]
  calc span * |change| ≤ 2 * half * |change| := mul_le_mul_of_nonneg_right most (abs_nonneg _)
    _ = 2 * |change| * half := by ring

/-- Four points are gentle if their ordinates are even and each gap is as long as the one before it, up to
one part in thirty. -/
theorem gentle_of_gaps (rise : 0 < stride) (even : ∀ i < 3, ys (i + 1) - ys i = stride)
    (ascending : ∀ i < 3, xs i < xs (i + 1))
    (longer : ∀ i < 2, 30 * (xs (i + 2) - xs (i + 1)) ≤ 31 * (xs (i + 1) - xs i))
    (shorter : ∀ i < 2, 30 * (xs (i + 1) - xs i) ≤ 31 * (xs (i + 2) - xs (i + 1))) : Gentle xs ys := by
  have first : 0 < xs 1 - xs 0 := sub_pos.mpr (ascending 0 (by decide))
  have second : 0 < xs 2 - xs 1 := sub_pos.mpr (ascending 1 (by decide))
  have third : 0 < xs 3 - xs 2 := sub_pos.mpr (ascending 2 (by decide))
  have longer0 : 30 * (xs 2 - xs 1) ≤ 31 * (xs 1 - xs 0) := longer 0 (by decide)
  have longer1 : 30 * (xs 3 - xs 2) ≤ 31 * (xs 2 - xs 1) := longer 1 (by decide)
  have shorter0 : 30 * (xs 1 - xs 0) ≤ 31 * (xs 2 - xs 1) := shorter 0 (by decide)
  have shorter1 : 30 * (xs 2 - xs 1) ≤ 31 * (xs 3 - xs 2) := shorter 1 (by decide)
  have slope (i : Nat) (inside : i < 3) : difference xs ys 1 i = stride / (xs (i + 1) - xs i) := by
    simp only [difference, even i inside, Nat.add_zero]
  have bend := slopes_near rise first second longer0 shorter0
  have bend' := slopes_near rise second third longer1 shorter1
  rw [← slope 0 (by decide), ← slope 1 (by decide)] at bend
  rw [← slope 1 (by decide), ← slope 2 (by decide)] at bend'
  have steep : 0 < difference xs ys 1 0 := by
    rw [slope 0 (by decide)]
    exact div_pos rise first
  have span : 0 < xs 3 - xs 0 := by linarith
  have wide : 0 < xs 2 - xs 0 := by linarith
  have wide' : 0 < xs 3 - xs 1 := by linarith
  have left : (xs 3 - xs 0) * |difference xs ys 2 0| ≤
      2 * |difference xs ys 1 1 - difference xs ys 1 0| := mul_abs_div_le wide (by linarith)
  have right : (xs 3 - xs 0) * |difference xs ys 2 1| ≤
      2 * |difference xs ys 1 2 - difference xs ys 1 1| := mul_abs_div_le wide' (by linarith)
  have whole : (xs 3 - xs 0) * |difference xs ys 3 0| =
      |difference xs ys 2 1 - difference xs ys 2 0| := by
    rw [difference, abs_div, abs_of_pos span]
    exact mul_div_cancel₀ _ span.ne'
  have both : (xs 3 - xs 0) ^ 2 * |difference xs ys 3 0| ≤
      2 * |difference xs ys 1 2 - difference xs ys 1 1| +
        2 * |difference xs ys 1 1 - difference xs ys 1 0| := by
    calc (xs 3 - xs 0) ^ 2 * |difference xs ys 3 0|
      _ = (xs 3 - xs 0) * |difference xs ys 2 1 - difference xs ys 2 0| := by rw [sq, mul_assoc, whole]
      _ ≤ (xs 3 - xs 0) * (|difference xs ys 2 1| + |difference xs ys 2 0|) :=
        mul_le_mul_of_nonneg_left (abs_sub _ _) span.le
      _ ≤ _ := by
        rw [mul_add]
        exact add_le_add right left
  have near : difference xs ys 1 1 ≤ 31 / 30 * difference xs ys 1 0 := by
    linarith [(abs_le.mp bend).2]
  unfold Gentle
  linarith

/-- Whether a list ascends, with gaps of which each is as long as the one before, up to one part in thirty. -/
def steady : List Nat → Bool
  | a :: b :: c :: rest =>
    a < b && b < c && 30 * (c - b) ≤ 31 * (b - a) && 30 * (b - a) ≤ 31 * (c - b) && steady (b :: c :: rest)
  | _ => true

theorem gaps_of_steady {points : List Nat} (even : steady points = true) {i : Nat}
    (inside : i + 2 < points.length) :
    points.getD i 0 < points.getD (i + 1) 0 ∧ points.getD (i + 1) 0 < points.getD (i + 2) 0 ∧
      30 * (points.getD (i + 2) 0 - points.getD (i + 1) 0) ≤
        31 * (points.getD (i + 1) 0 - points.getD i 0) ∧
      30 * (points.getD (i + 1) 0 - points.getD i 0) ≤
        31 * (points.getD (i + 2) 0 - points.getD (i + 1) 0) := by
  induction points generalizing i with
  | nil => cases inside
  | cons a rest ih =>
    match rest, ih with
    | [], _ => simp at inside
    | [b], _ => simp at inside
    | b :: c :: rest, ih =>
      simp only [steady, Bool.and_eq_true, decide_eq_true_eq] at even
      obtain ⟨⟨⟨⟨less, less'⟩, longer⟩, shorter⟩, others⟩ := even
      cases i with
      | zero => exact ⟨less, less', longer, shorter⟩
      | succ i => exact ih others (Nat.lt_of_succ_lt_succ inside)

end

end Interpolation

namespace BiasTable

theorem steady_row (p : Precision) :
    (row p).size = rowSize ∧ Interpolation.steady (row p).toList = true ∧ 0 < (row p).getD 0 0 := by
  obtain ⟨lg, four, most⟩ := p
  interval_cases lg <;> decide +kernel +revert

variable {α : Type} [Unrounded α] {p : Precision} {i : Nat}

theorem raw_eq (p : Precision) (i : Nat) : (raw p i : α) = (row p).getD i 0 / 10 ^ places p := rfl

theorem raw_pos (p : Precision) : (0 : α) < raw p 0 := by
  have positive : (0 : α) < (row p).getD 0 0 := Nat.cast_pos.mpr (steady_row p).2.2
  rw [raw_eq]
  positivity

theorem raw_gaps (inside : i + 2 < rowSize) :
    (raw p i : α) < raw p (i + 1) ∧ (raw p (i + 1) : α) < raw p (i + 2) ∧
      30 * (raw p (i + 2) - raw p (i + 1) : α) ≤ 31 * (raw p (i + 1) - raw p i) ∧
      30 * (raw p (i + 1) - raw p i : α) ≤ 31 * (raw p (i + 2) - raw p (i + 1)) := by
  obtain ⟨size, even, _⟩ := steady_row p
  have length : (row p).toList.length = rowSize := Array.length_toList.trans size
  have point (j : Nat) : (row p).toList.getD j 0 = (row p).getD j 0 := by
    rw [List.getD_eq_getElem?_getD, Array.getElem?_toList, Array.getD_eq_getD_getElem?]
  have gaps := Interpolation.gaps_of_steady even (length ▸ inside)
  simp only [point] at gaps
  obtain ⟨less, less', longer, shorter⟩ := gaps
  have scale : (0 : α) < 10 ^ places p := by positivity
  have gap {few many : Nat} (less : few < many) :
      (many : α) / 10 ^ places p - few / 10 ^ places p = ((many - few : Nat) : α) / 10 ^ places p := by
    rw [Nat.cast_sub less.le, sub_div]
  simp only [raw_eq]
  rw [gap less, gap less']
  refine ⟨?_, ?_, ?_, ?_⟩
  · exact div_lt_div_of_pos_right (Nat.cast_lt.mpr less) scale
  · exact div_lt_div_of_pos_right (Nat.cast_lt.mpr less') scale
  · rw [mul_div_assoc', mul_div_assoc']
    exact div_le_div_of_nonneg_right (by exact_mod_cast longer) scale.le
  · rw [mul_div_assoc', mul_div_assoc']
    exact div_le_div_of_nonneg_right (by exact_mod_cast shorter) scale.le

theorem raw_lt_raw (inside : i + 1 < rowSize) : (raw p i : α) < raw p (i + 1) := by
  by_cases more : i + 2 < rowSize
  · exact (raw_gaps more).1
  · obtain rfl : i = 255 := by
      have : rowSize = 257 := rfl
      omega
    exact (raw_gaps (i := 254) (by decide)).2.1

theorem stride_pos (p : Precision) : 0 < stride p := by
  unfold stride
  split <;> positivity

theorem smooth_raw (p : Precision) :
    Interpolation.Smooth (raw p : Nat → α) (fun i => Scalar.ofNat (stride p) * Scalar.ofNat i) rowSize := by
  have size : rowSize = 257 := rfl
  refine ⟨by decide, fun i inside => raw_lt_raw inside, fun start inside => ?_⟩
  have rise : (0 : α) < stride p := Nat.cast_pos.mpr (stride_pos p)
  refine Interpolation.gentle_of_gaps rise ?_ ?_ ?_ ?_
  · intro i _
    simp only [Unrounded.ofNat_eq]
    push_cast
    ring
  · intro i within
    exact raw_lt_raw (by omega)
  · intro i within
    exact (raw_gaps (i := start + i) (by omega)).2.2.1
  · intro i within
    exact (raw_gaps (i := start + i) (by omega)).2.2.2

end BiasTable

namespace Composite

open BiasTable (raw stride rowSize)

variable {α : Type} [Unrounded α] {p : Precision} {x y : α} {i : Nat}

theorem corrected_of_lt (below : x < raw p 0) : corrected p x = 0 := by
  rw [corrected, if_pos below, Unrounded.ofNat_eq, Nat.cast_zero]

theorem corrected_of_inside (left : raw p 0 ≤ x) (right : x ≤ raw p lastPoint) :
    corrected p x = Interpolation.interpolateEven (raw p) (Scalar.ofNat (stride p)) rowSize x := by
  rw [corrected, if_neg (not_lt.mpr left), if_neg (not_lt.mpr right)]

theorem first_lt_last (p : Precision) : (raw p 0 : α) < raw p lastPoint :=
  Interpolation.lt_of_ascending (BiasTable.smooth_raw p).ascending (by decide) (by decide)

theorem corrected_of_gt (above : raw p lastPoint < x) :
    corrected p x = stride p * lastPoint * (x / raw p lastPoint) := by
  have right := (first_lt_last p).trans above
  rw [corrected, if_neg (not_lt.mpr right.le), if_pos above]
  simp only [Unrounded.ofNat_eq]
  ring

/-- A point of the row is read as its true count. -/
theorem corrected_point (inside : i < rowSize) : corrected p (raw p i : α) = stride p * i := by
  have smooth := BiasTable.smooth_raw (α := α) p
  have left : raw p 0 ≤ (raw p i : α) :=
    Interpolation.le_of_ascending smooth.ascending (Nat.zero_le i) inside
  have right : raw p i ≤ (raw p lastPoint : α) :=
    Interpolation.le_of_ascending smooth.ascending (Nat.le_of_lt_succ inside) (by decide)
  rw [corrected_of_inside left right, Interpolation.interpolateEven]
  rcases (Nat.le_of_lt_succ inside).eq_or_lt with last | inner
  · rw [last]
    exact Interpolation.interpolate_last _ _ _
  · have inner' : i + 1 < rowSize := Nat.succ_lt_succ inner
    rw [Interpolation.interpolate_eq_piece smooth.ascending inner' le_rfl (smooth.ascending i inner')]
    exact Interpolation.piece_node smooth.ascending smooth.four _ inner' (.inl rfl)

theorem corrected_lt_inside (left : raw p 0 ≤ x) (less : x < y) (right : y ≤ raw p lastPoint) :
    corrected p x < corrected p y := by
  rw [corrected_of_inside left (less.le.trans right), corrected_of_inside (left.trans less.le) right]
  exact Interpolation.interpolate_lt_interpolate (BiasTable.smooth_raw p) left less right

/-- From the first point on, what is read rises with the raw estimate, inside the row and beyond it. -/
theorem corrected_lt_corrected (left : raw p 0 ≤ x) (less : x < y) : corrected p x < corrected p y := by
  have positive := (BiasTable.raw_pos (α := α) p).trans (first_lt_last p)
  have rise : (0 : α) < stride p * lastPoint :=
    mul_pos (Nat.cast_pos.mpr (BiasTable.stride_pos p)) (Nat.cast_pos.mpr (by decide))
  rcases le_or_gt y (raw p lastPoint) with right | above
  · exact corrected_lt_inside left less right
  · rw [corrected_of_gt above]
    rcases lt_trichotomy x (raw p lastPoint) with inner | rfl | beyond
    · -- the line starts at the last point, from where it rises
      calc corrected p x < corrected p (raw p lastPoint) := corrected_lt_inside left inner le_rfl
        _ = stride p * lastPoint := corrected_point (by decide)
        _ ≤ stride p * lastPoint * (y / raw p lastPoint) :=
          le_mul_of_one_le_right rise.le ((one_le_div positive).mpr above.le)
    · rw [corrected_point (by decide)]
      exact lt_mul_of_one_lt_right rise ((one_lt_div positive).mpr above)
    · rw [corrected_of_gt beyond]
      exact mul_lt_mul_of_pos_left (div_lt_div_of_pos_right less positive) rise

theorem corrected_nonneg (p : Precision) (x : α) : 0 ≤ corrected p x := by
  rcases lt_or_ge x (raw p 0) with below | left
  · exact (corrected_of_lt below).ge
  · have zero : corrected p (raw p 0 : α) = 0 := by
      rw [corrected_point (by decide), Nat.cast_zero, mul_zero]
    rcases left.eq_or_lt with rfl | less
    · exact zero.ge
    · exact (zero.symm.trans_lt (corrected_lt_corrected le_rfl less)).le

theorem corrected_le_corrected (le : x ≤ y) : corrected p x ≤ corrected p y := by
  rcases lt_or_ge x (raw p 0) with below | left
  · rw [corrected_of_lt below]
    exact corrected_nonneg p y
  · rcases le.eq_or_lt with rfl | less
    · exact le_rfl
    · exact (corrected_lt_corrected left less).le

/-- The correction as a fraction of whole numbers. -/
def ratio (p : Precision) : Nat × Nat :=
  match p.lg with
  | 4 => (673, 1000)
  | 5 => (697, 1000)
  | 6 => (709, 1000)
  | _ => (7213 * p.size, 10 * (1000 * p.size + 1079))

theorem ratio_pos (p : Precision) : 0 < (ratio p).1 ∧ 0 < (ratio p).2 := by
  have := p.size_pos
  unfold ratio
  split <;> constructor <;> dsimp only <;> omega

theorem correction_eq (p : Precision) : (correction p : α) = (ratio p).1 / (ratio p).2 := by
  have positive : (0 : α) < p.size := Nat.cast_pos.mpr p.size_pos
  unfold correction ratio
  split <;> rename_i lg
  · norm_num [lg, Unrounded.decimal_eq]
  · norm_num [lg, Unrounded.decimal_eq]
  · norm_num [lg, Unrounded.decimal_eq]
  · simp only [Unrounded.decimal_eq, Unrounded.ofNat_eq]
    push_cast
    field_simp
    ring

theorem correction_pos (p : Precision) : (0 : α) < correction p := by
  obtain ⟨above, below⟩ := ratio_pos p
  rw [correction_eq]
  exact div_pos (Nat.cast_pos.mpr above) (Nat.cast_pos.mpr below)

theorem rawEstimate_eq (p : Precision) (sum : α) :
    rawEstimate p sum = correction p * p.size * p.size / sum := rfl

theorem rawEstimate_anti (positive : 0 < x) (le : x ≤ y) : rawEstimate p y ≤ rawEstimate p x := by
  have factor := (correction_pos (α := α) p).le
  rw [rawEstimate_eq, rawEstimate_eq]
  exact div_le_div_of_nonneg_left (by positivity) positive le

theorem first_le_ratio (p : Precision) :
    (BiasTable.row p).getD 0 0 * ((ratio p).2 * (2 * p.size - 1)) ≤
      (ratio p).1 * p.size * p.size * 2 * 10 ^ BiasTable.places p := by
  obtain ⟨lg, four, most⟩ := p
  interval_cases lg <;> decide +kernel +revert

/-- A single register that is hit takes the raw estimate into the row. -/
theorem first_le_rawEstimate (positive : 0 < x) (touched : x ≤ p.size - 1 / 2) :
    raw p 0 ≤ rawEstimate p x := by
  have least : raw p 0 ≤ rawEstimate p (p.size - 1 / 2 : α) := by
    have size : (1 : α) ≤ p.size := Nat.one_le_cast.mpr p.size_pos
    have below : (0 : α) < (ratio p).2 := Nat.cast_pos.mpr (ratio_pos p).2
    have check : ((BiasTable.row p).getD 0 0 : α) * ((ratio p).2 * (2 * p.size - 1)) ≤
        (ratio p).1 * p.size * p.size * 2 * 10 ^ BiasTable.places p := by
      have odd : ((2 * p.size - 1 : Nat) : α) = 2 * p.size - 1 := by
        rw [Nat.cast_pred (Nat.mul_pos Nat.two_pos p.size_pos)]
        push_cast
        ring
      rw [← odd]
      exact_mod_cast first_le_ratio p
    rw [BiasTable.raw_eq, rawEstimate_eq, correction_eq, div_mul_eq_mul_div, div_mul_eq_mul_div, div_div,
      div_le_div_iff₀ (by positivity) (mul_pos below (by linarith))]
    linarith
  exact least.trans (rawEstimate_anti positive touched)

end Composite

end DistinctCount
