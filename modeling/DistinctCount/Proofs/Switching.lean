import DistinctCount.Proofs.Bracketing
import DistinctCount.Proofs.Calibration
import DistinctCount.Proofs.LinearCounting

/-! The choice of the composite estimate. Both candidates grow as registers are raised, and linear counting
gives way to the corrected estimate for good. As long as the choice is the same, the estimate grows with its
candidate. -/

namespace DistinctCount

namespace Composite

open BiasTable (raw)

variable {p : Precision} {t t' : Tally ℝ}

/-- The raw estimate of a tally, read through the bias table. -/
noncomputable def adjusted (p : Precision) (t : Tally ℝ) : ℝ := corrected p (rawEstimate p t.sum)

/-- Whether the corrected estimate is reported rather than the linear count. -/
def IsCorrected (p : Precision) (t : Tally ℝ) : Prop :=
  raw p lastPoint < rawEstimate p t.sum ∨ (3 : Nat) * p.size < adjusted p t ∨
    crossover p * p.size < (adjusted p t + linearEstimate p t) / (2 : Nat)

theorem estimate_of_lt (below : rawEstimate p t.sum < raw p 0) : estimate p t = 0 := by
  simp only [estimate, if_pos below, Unrounded.ofNat_eq, Nat.cast_zero]

theorem estimate_of_isCorrected (isCorrected : IsCorrected p t) : estimate p t = adjusted p t := by
  simp only [estimate, Unrounded.ofNat_eq, Nat.cast_ofNat]
  split_ifs with below beyond many mean
  · rw [adjusted, corrected_of_lt below, Nat.cast_zero]
  · rfl
  · rfl
  · rfl
  · rcases isCorrected with beyond' | many' | mean'
    · exact absurd beyond' beyond
    · exact absurd many' many
    · exact absurd mean' mean

theorem estimate_of_not_isCorrected (left : raw p 0 ≤ rawEstimate p t.sum) (linear : ¬IsCorrected p t) :
    estimate p t = linearEstimate p t := by
  simp only [estimate, Unrounded.ofNat_eq, Nat.cast_ofNat]
  split_ifs with below beyond many mean
  · exact absurd below (not_lt.mpr left)
  · exact absurd (.inl beyond) linear
  · exact absurd (.inr (.inl many)) linear
  · exact absurd (.inr (.inr mean)) linear
  · rfl

theorem linearEstimate_nonneg (inside : unhit t ≤ p.size) : 0 ≤ linearEstimate p t :=
  (Nat.cast_nonneg _).trans (hit_le_linearEstimate inside)

theorem estimate_nonneg (inside : unhit t ≤ p.size) : 0 ≤ estimate p t := by
  rcases lt_or_ge (rawEstimate p t.sum) (raw p 0) with below | left
  · exact (estimate_of_lt below).ge
  · by_cases isCorrected : IsCorrected p t
    · rw [estimate_of_isCorrected isCorrected]
      exact corrected_nonneg p _
    · rw [estimate_of_not_isCorrected left isCorrected]
      exact linearEstimate_nonneg inside

section

/-- What raising registers does to a tally. -/
structure Ahead (p : Precision) (t t' : Tally ℝ) : Prop where
  positive : 0 < t'.sum
  sum_le : t'.sum ≤ t.sum
  unhit_le : unhit t' ≤ unhit t
  inside : unhit t ≤ p.size

variable (ahead : Ahead p t t')

include ahead

theorem Ahead.rawEstimate_le : rawEstimate p t.sum ≤ rawEstimate p t'.sum :=
  rawEstimate_anti ahead.positive ahead.sum_le

theorem Ahead.adjusted_le : adjusted p t ≤ adjusted p t' := corrected_le_corrected ahead.rawEstimate_le

theorem Ahead.linearEstimate_le : linearEstimate p t ≤ linearEstimate p t' :=
  linearEstimate_le_linearEstimate ahead.unhit_le ahead.inside

/-- Each test for the corrected estimate is passed for good. -/
theorem Ahead.isCorrected (isCorrected : IsCorrected p t) : IsCorrected p t' := by
  have adjusted_le := ahead.adjusted_le
  have linear_le := ahead.linearEstimate_le
  rcases isCorrected with beyond | many | mean
  · exact .inl (beyond.trans_le ahead.rawEstimate_le)
  · exact .inr (.inl (many.trans_le adjusted_le))
  · exact .inr (.inr (mean.trans_le (by linarith)))

/-- Between tallies with the same choice the estimate does not fall. -/
theorem Ahead.estimate_le (kept : IsCorrected p t' → IsCorrected p t) : estimate p t ≤ estimate p t' := by
  rcases lt_or_ge (rawEstimate p t.sum) (raw p 0) with below | left
  · rw [estimate_of_lt below]
    exact estimate_nonneg (ahead.unhit_le.trans ahead.inside)
  · by_cases isCorrected : IsCorrected p t
    · rw [estimate_of_isCorrected isCorrected, estimate_of_isCorrected (ahead.isCorrected isCorrected)]
      exact ahead.adjusted_le
    · rw [estimate_of_not_isCorrected left isCorrected,
        estimate_of_not_isCorrected (left.trans ahead.rawEstimate_le) (mt kept isCorrected)]
      exact ahead.linearEstimate_le

end

end Composite

namespace RegisterArray

section

variable {α : Type} [Scalar α] {a b : RegisterArray α}

/-- An array each of whose registers holds at least the value of another one. -/
structure Below (a b : RegisterArray α) : Prop where
  precision : b.precision = a.precision
  get_le : ∀ slot < a.precision.size, a.get slot ≤ b.get slot

theorem below_updateAll (sound : a.Sound) (coupons : List Coupon) (inOrder : Bool) :
    a.Below (coupons.foldl (fun a c => a.update c inOrder) a) := by
  obtain ⟨_, precision, _, bounds⟩ := updateAll_spec sound coupons inOrder
  refine ⟨precision, ?_⟩
  intro slot inside
  exact ((bounds slot inside _).mp le_rfl).1

omit [Scalar α] in
theorem Below.untouched_le (below : a.Below b) : b.values.count 0 ≤ a.values.count 0 := by
  rw [values, values, below.precision, List.count_eq_countP, List.count_eq_countP, List.countP_map,
    List.countP_map]
  apply List.countP_mono_left
  intro slot member untouched
  have le := below.get_le slot (List.mem_range.mp member)
  have zero : b.get slot = 0 := beq_iff_eq.mp untouched
  exact beq_iff_eq.mpr (Nat.le_zero.mp (zero ▸ le))

end

section

variable {α : Type} [Unrounded α] {a b : RegisterArray α}

theorem Below.sum_le (below : a.Below b) : (b.scan.sum : α) ≤ a.scan.sum := by
  rw [sum_scan_eq, sum_scan_eq, below.precision]
  apply Finset.sum_le_sum
  intro slot member
  have larger := below.get_le slot (Finset.mem_range.mp member)
  exact pow_le_pow_of_le_one (by positivity) (by norm_num) larger

/-- Each register that was hit takes at least a half off the sum. -/
theorem sum_add_hits_le (values : List Nat) :
    (values.map (Scalar.halfPow : Nat → α)).sum + (values.countP (0 < ·) : α) / 2 ≤ values.length := by
  induction values with
  | nil => simp
  | cons value rest ih =>
    rw [List.map_cons, List.sum_cons, List.countP_cons, List.length_cons, Nat.cast_succ]
    cases value with
    | zero =>
      have whole : (Scalar.halfPow 0 : α) ≤ 1 := Unrounded.halfPow_le_one 0
      simp only [Nat.lt_irrefl, decide_false, Bool.false_eq_true, if_false, Nat.add_zero]
      linarith
    | succ value =>
      have half : (Scalar.halfPow (value + 1) : α) ≤ 1 / 2 := by
        have whole : (Scalar.halfPow value : α) ≤ 1 := Unrounded.halfPow_le_one value
        rw [Unrounded.halfPow_eq] at whole ⊢
        rw [pow_succ]
        linarith
      simp only [Nat.succ_pos, decide_true, if_true, Nat.cast_succ]
      linarith

theorem sum_scan_le_of_hit (hit : 0 < a.hits) : (a.scan.sum : α) ≤ a.precision.size - 1 / 2 := by
  have bound := sum_add_hits_le (α := α) a.values
  have one : (1 : α) ≤ a.hits := Nat.one_le_cast.mpr hit
  rw [length_values] at bound
  rw [scan, Unrounded.sum_scan]
  change _ + (a.hits : α) / 2 ≤ _ at bound
  linarith

end

variable {a b : RegisterArray ℝ}

noncomputable def adjusted (a : RegisterArray ℝ) : ℝ := Composite.adjusted a.precision a.currentTally

noncomputable def linearCount (a : RegisterArray ℝ) : ℝ :=
  Composite.linearEstimate a.precision a.currentTally

def IsCorrected (a : RegisterArray ℝ) : Prop := Composite.IsCorrected a.precision a.currentTally

theorem unhit_le_size (exact : a.Exact) : Composite.unhit a.currentTally ≤ a.precision.size := by
  rw [exact.currentTally, scan, Composite.unhit_scan, ← length_values]
  exact List.count_le_length

theorem Below.ahead (below : a.Below b) (exact : a.Exact) (exact' : b.Exact) :
    Composite.Ahead a.precision a.currentTally b.currentTally where
  positive := by
    rw [exact'.currentTally]
    exact Unrounded.sum_scan_pos _ b.values_ne_nil
  sum_le := by
    rw [exact.currentTally, exact'.currentTally]
    exact below.sum_le
  unhit_le := by
    rw [exact.currentTally, exact'.currentTally, scan, scan, Composite.unhit_scan, Composite.unhit_scan]
    exact below.untouched_le
  inside := unhit_le_size exact

section

variable (below : a.Below b) (exact : a.Exact) (exact' : b.Exact)

include below exact exact'

theorem Below.adjusted_le : a.adjusted ≤ b.adjusted := by
  rw [adjusted, adjusted, below.precision]
  exact (below.ahead exact exact').adjusted_le

theorem Below.linearCount_le : a.linearCount ≤ b.linearCount := by
  rw [linearCount, linearCount, below.precision]
  exact (below.ahead exact exact').linearEstimate_le

theorem Below.isCorrected (isCorrected : a.IsCorrected) : b.IsCorrected := by
  rw [IsCorrected, below.precision]
  exact (below.ahead exact exact').isCorrected isCorrected

/-- Unless linear counting gives way, the estimate is no less for larger registers. -/
theorem Below.compositeEstimate_le (same : ¬(¬a.IsCorrected ∧ b.IsCorrected)) :
    a.compositeEstimate ≤ b.compositeEstimate := by
  rw [IsCorrected, IsCorrected, below.precision] at same
  rw [compositeEstimate, compositeEstimate, below.precision]
  apply (below.ahead exact exact').estimate_le
  intro isCorrected
  by_contra notCorrected
  exact same ⟨notCorrected, isCorrected⟩

end

theorem first_le_rawEstimate (exact : a.Exact) (hit : 0 < a.hits) :
    BiasTable.raw a.precision 0 ≤ Composite.rawEstimate a.precision a.currentTally.sum := by
  rw [exact.currentTally]
  exact Composite.first_le_rawEstimate (Unrounded.sum_scan_pos _ a.values_ne_nil) (sum_scan_le_of_hit hit)

/-- Once a register is hit, one of the candidates is reported. -/
theorem compositeEstimate_eq (exact : a.Exact) (hit : 0 < a.hits) :
    (a.IsCorrected → a.compositeEstimate = a.adjusted) ∧
      (¬a.IsCorrected → a.compositeEstimate = a.linearCount) :=
  ⟨Composite.estimate_of_isCorrected,
    Composite.estimate_of_not_isCorrected (first_le_rawEstimate exact hit)⟩

theorem hits_le_linearCount (exact : a.Exact) : (a.hits : ℝ) ≤ a.linearCount := by
  rw [← hit_scan, ← exact.currentTally]
  exact Composite.hit_le_linearEstimate (unhit_le_size exact)

end RegisterArray

end DistinctCount
