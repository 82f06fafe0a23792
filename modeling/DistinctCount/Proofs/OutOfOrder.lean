import DistinctCount.Proofs.Switching

namespace DistinctCount

namespace Sketch

section

variable {s : Sketch ℝ} {f : Sketch Float} {a : RegisterArray ℝ}

theorem estimate_of_outOfOrder (store : s.store = .registers a) (outOfOrder : s.outOfOrder = true) :
    s.estimate = a.compositeEstimate := by
  rw [estimate, store, outOfOrder]
  rfl

theorem store_addCoupons_of_registers (store : s.store = .registers a) (outOfOrder : s.outOfOrder = true)
    (stream : List Coupon) :
    (s.addCoupons stream).store = .registers (stream.foldl (fun a c => a.update c false) a) := by
  rw [addCoupons_eq, store, outOfOrder]
  exact Store.foldl_update_registers a s.precision stream false

theorem store_addCoupon_of_registers (store : s.store = .registers a) (outOfOrder : s.outOfOrder = true)
    (c : Coupon) : (s.addCoupon c).store = .registers (a.update c false) :=
  store_addCoupons_of_registers store outOfOrder [c]

end

section

variable {α : Type} [Scalar α] {s : Sketch α} {f : Sketch Float} {coupons : List Coupon}

/-- What a union makes of a single sketch. -/
def united (s : Sketch α) : Sketch α := SketchUnion.absorb (empty s.precision .eight s.seed) s.store

theorem merge_empty (s : Sketch α) :
    (SketchUnion.empty s.precision s.seed).merge s = .ok ⟨s.precision, s.united⟩ := by
  have same : min s.precision s.precision = s.precision := ite_self _
  simp only [SketchUnion.merge, SketchUnion.empty, empty, united, same, ne_eq, not_true_eq_false, if_false,
    if_true]

theorem Retraces.united (run : s.Retraces f) : s.united.Retraces f.united := by
  have precision : s.precision = f.precision := congrArg Sketch.precision run.erase
  have seed : s.seed = f.seed := congrArg Sketch.seed run.erase
  have start : (Sketch.empty s.precision .eight s.seed : Sketch α).Retraces
      (Sketch.empty f.precision .eight f.seed) := by
    rw [precision, seed]
    exact .empty f.precision .eight f.seed
  exact .union precision start run (merge_empty s) (merge_empty f)

theorem holds_united [Tally.ExactSums α] (holds : s.Holds coupons) :
    s.united.Holds coupons ∧ s.united.precision = s.precision := by
  have absorbed := holds_absorb (holds_empty (α := α) s.precision .eight s.seed) holds le_rfl
  rwa [List.append_nil] at absorbed

theorem outOfOrder_united (s : Sketch α) : s.united.outOfOrder = true := outOfOrder_absorb _ _

end

section

/-- A sketch that came of a merge, with a one in each of its first registers. -/
def mergedOnes (α : Type) [Scalar α] (count : Nat) : Sketch α :=
  ((empty sixteen .eight .standard).addCoupons (Coupon.row count 1)).united

variable {a : RegisterArray ℝ} {count : Nat}

theorem retraces_mergedOnes (count : Nat) : (mergedOnes ℝ count).Retraces (mergedOnes Float count) := by
  have start : (empty sixteen .eight .standard : Sketch ℝ).Retraces (empty sixteen .eight .standard) :=
    .empty sixteen .eight .standard
  exact (start.addCoupons _ (Coupon.valued_row count le_rfl (by decide))).united

theorem holds_mergedOnes (count : Nat) :
    (mergedOnes ℝ count).store.Holds sixteen (Coupon.row count 1) := by
  obtain ⟨alone, _, precision⟩ := holds_addCoupons (holds_empty (α := ℝ) sixteen .eight .standard)
    (Coupon.row count 1) (Coupon.valued_row count le_rfl (by decide))
  obtain ⟨merged, precision'⟩ := holds_united alone
  have same : (mergedOnes ℝ count).precision = sixteen := precision'.trans precision
  rw [List.append_nil] at merged
  exact same ▸ merged.store

theorem values_of_ones (few : count ≤ 16) (known : (Store.registers a).Holds sixteen (Coupon.row count 1)) :
    a.values = List.replicate count 1 ++ List.replicate (16 - count) 0 := by
  obtain ⟨_, precision, _, _⟩ := known.registers
  have size : a.precision.size = 16 := congrArg Precision.size precision
  have length : (List.replicate count 1 ++ List.replicate (16 - count) 0).length = 16 := by
    rw [List.length_append, List.length_replicate, List.length_replicate, Nat.add_sub_cancel' few]
  apply List.ext_getElem
  · rw [RegisterArray.length_values, size, length]
  · intro slot inside _
    rw [RegisterArray.length_values, size] at inside
    rw [RegisterArray.getElem_values, known.get_row few (by decide) inside, List.getElem_append]
    simp only [List.length_replicate, List.getElem_replicate]
    split_ifs <;> rfl

theorem ones_spec (few : count ≤ 16) (known : (Store.registers a).Holds sixteen (Coupon.row count 1)) :
    a.precision = sixteen ∧ a.hits = count ∧ Composite.unhit a.currentTally = 16 - count ∧
      Composite.rawEstimate sixteen a.currentTally.sum = 673 / 1000 * 16 * 16 / (16 - count / 2) := by
  obtain ⟨exact, precision, _, _⟩ := known.registers
  have values := values_of_ones few known
  have sum : a.currentTally.sum = 16 - (count : ℝ) / 2 := by
    rw [exact.currentTally, RegisterArray.scan, Unrounded.sum_scan, values]
    simp only [List.map_append, List.map_replicate, List.sum_append, List.sum_replicate, nsmul_eq_mul,
      Unrounded.halfPow_eq, Nat.cast_sub few]
    push_cast
    ring
  have correction : (Composite.correction sixteen : ℝ) = 673 / 1000 := by
    norm_num [Composite.correction_eq, Composite.ratio, sixteen]
  have size : ((sixteen.size : Nat) : ℝ) = 16 := by norm_num [Precision.size, sixteen]
  refine ⟨precision, ?_, ?_, ?_⟩
  · rw [RegisterArray.hits, values]
    simp [List.countP_append, List.countP_replicate]
  · rw [exact.currentTally, RegisterArray.scan, Composite.unhit_scan, values]
    simp [List.count_append, List.count_replicate]
  · rw [Composite.rawEstimate_eq, correction, size, sum]

theorem raw_sixteen : (BiasTable.raw sixteen 9 : ℝ) = 15.556414447178 ∧
    (BiasTable.raw sixteen 10 : ℝ) = 16.167227058768 ∧
    (BiasTable.raw sixteen 12 : ℝ) = 17.435831011559 := by
  have places : BiasTable.places sixteen = 12 := rfl
  have points : (BiasTable.row sixteen).getD 9 0 = 15556414447178 ∧
      (BiasTable.row sixteen).getD 10 0 = 16167227058768 ∧
      (BiasTable.row sixteen).getD 12 0 = 17435831011559 := by decide +kernel
  obtain ⟨nine, ten, twelve⟩ := points
  simp only [BiasTable.raw_eq, places, nine, ten, twelve]
  norm_num

theorem corrected_sixteen {i : Nat} (inside : i < BiasTable.rowSize) :
    Composite.corrected sixteen (BiasTable.raw sixteen i : ℝ) = i := by
  have stride : BiasTable.stride sixteen = 1 := rfl
  rw [Composite.corrected_point inside, stride, Nat.cast_one, one_mul]

theorem items_sixteen : (14.8 : ℝ) < Harmonic.itemsForUnhit 16 6 ∧
    (12.6 : ℝ) < Harmonic.itemsForUnhit 16 7 ∧ (Harmonic.itemsForUnhit 16 7 : ℝ) < 12.7 := by
  have sum (n : Nat) (few : n < Harmonic.asymptoticFrom) : (Harmonic.number n : ℝ) = Harmonic.exact n :=
    if_pos few
  simp only [Harmonic.itemsForUnhit, sum 16 (by decide), sum 6 (by decide), sum 7 (by decide),
    Harmonic.exact, Unrounded.ofNat_eq]
  norm_num

theorem crossover_sixteen : (Composite.crossover sixteen * (sixteen.size : Nat) : ℝ) = 11.488 := by
  norm_num [Composite.crossover, sixteen, Precision.size, Unrounded.decimal_eq]

/-- Linear counting has given way once ten registers hold a one. -/
theorem isCorrected_of_ten (ten : 10 ≤ count) (few : count ≤ 16)
    (known : (Store.registers a).Holds sixteen (Coupon.row count 1)) : a.IsCorrected := by
  obtain ⟨precision, _, unhit, estimate⟩ := ones_spec few known
  have adjusted : 9 ≤ Composite.adjusted sixteen a.currentTally := by
    have ten' : (10 : ℝ) ≤ count := by exact_mod_cast ten
    have few' : (count : ℝ) ≤ 16 := by exact_mod_cast few
    have left : BiasTable.raw sixteen 9 ≤ Composite.rawEstimate sixteen a.currentTally.sum := by
      rw [estimate, raw_sixteen.1, le_div_iff₀ (by linarith)]
      linarith
    exact (corrected_sixteen (i := 9) (by decide)).symm.trans_le (Composite.corrected_le_corrected left)
  let six : Tally ℝ := ⟨0, 6, 0, 0⟩
  have fewer : Composite.unhit a.currentTally ≤ Composite.unhit six := by
    rw [unhit]
    exact Nat.sub_le_of_le_add (Nat.add_le_add_left ten 6)
  have counted : Composite.linearEstimate sixteen six = Harmonic.itemsForUnhit 16 6 :=
    Composite.linearEstimate_of_unhit (by decide)
  have linear : Composite.linearEstimate sixteen six ≤ Composite.linearEstimate sixteen a.currentTally :=
    Composite.linearEstimate_le_linearEstimate fewer (by decide)
  rw [RegisterArray.IsCorrected, precision]
  refine .inr (.inr ?_)
  rw [crossover_sixteen]
  linarith [items_sixteen.1]

/-- With nine ones the mean of both candidates is still below the crossover. -/
theorem linearCount_of_nine (known : (Store.registers a).Holds sixteen (Coupon.row 9 1)) :
    ¬a.IsCorrected ∧ 12.6 < a.linearCount := by
  obtain ⟨precision, _, unhit, estimate⟩ := ones_spec (by decide) known
  obtain ⟨_, least, most⟩ := items_sixteen
  have right : Composite.rawEstimate sixteen a.currentTally.sum ≤ BiasTable.raw sixteen 9 := by
    rw [estimate, raw_sixteen.1]
    norm_num
  have adjusted : Composite.adjusted sixteen a.currentTally ≤ 9 :=
    (Composite.corrected_le_corrected right).trans_eq (corrected_sixteen (by decide))
  have linear : Composite.linearEstimate sixteen a.currentTally = Harmonic.itemsForUnhit 16 7 := by
    rw [Composite.linearEstimate_of_unhit (by rw [unhit]; decide), unhit]
    rfl
  rw [RegisterArray.IsCorrected, RegisterArray.linearCount, precision, linear]
  refine ⟨?_, least⟩
  rintro (beyond | many | mean)
  · have inner : (BiasTable.raw sixteen 9 : ℝ) < BiasTable.raw sixteen Composite.lastPoint :=
      Interpolation.lt_of_ascending (BiasTable.smooth_raw sixteen).ascending (by decide) (by decide)
    linarith
  · have size : ((sixteen.size : Nat) : ℝ) = 16 := by norm_num [Precision.size, sixteen]
    rw [size, Nat.cast_ofNat] at many
    linarith
  · rw [crossover_sixteen, linear] at mean
    linarith

end

section

variable {s : Sketch ℝ} {f : Sketch Float} {a : RegisterArray ℝ}

/-- Out of order, no estimate exceeds its upper bound, and only a corrected estimate that is less than the
number of registers that were hit is exceeded by its lower bound, which then is that number. Linear counting
never counts fewer items than registers. -/
theorem composite_within_bounds (run : s.Retraces f) (store : s.store = .registers a)
    (outOfOrder : s.outOfOrder = true) (deviation : Deviation) :
    s.estimate ≤ s.upperBound deviation ∧
      (s.lowerBound deviation ≤ s.estimate ↔ (a.hits : ℝ) ≤ s.estimate) ∧
      (¬a.IsCorrected → s.estimate = a.linearCount ∧ (a.hits : ℝ) ≤ s.estimate) ∧
      (s.estimate < a.hits → s.estimate = a.adjusted ∧ s.lowerBound deviation = a.hits) := by
  obtain ⟨exact, _, hit⟩ := run.registers store
  obtain ⟨positive, proper, negative⟩ := relativeError_bounds true a.precision deviation
  obtain ⟨corrected, linear⟩ := a.compositeEstimate_eq exact hit
  have nonneg : 0 ≤ a.compositeEstimate := Composite.estimate_nonneg (a.unhit_le_size exact)
  have lower : s.lowerBound deviation = max
      (a.compositeEstimate / (1 + relativeError .lower true a.precision deviation)) (a.hits : ℝ) := by
    rw [lowerBound, store, outOfOrder]
    exact a.lowerBound_eq exact true deviation
  have upper : s.upperBound deviation =
      a.compositeEstimate / (1 + relativeError .upper true a.precision deviation) := by
    rw [upperBound, store, outOfOrder]
    exact a.upperBound_eq true deviation
  have below : a.compositeEstimate / (1 + relativeError .lower true a.precision deviation) ≤
      a.compositeEstimate := div_le_self nonneg (le_add_of_nonneg_right positive.le)
  have counted (notCorrected : ¬a.IsCorrected) :
      a.compositeEstimate = a.linearCount ∧ (a.hits : ℝ) ≤ a.compositeEstimate := by
    rw [linear notCorrected]
    exact ⟨rfl, a.hits_le_linearCount exact⟩
  rw [estimate_of_outOfOrder store outOfOrder, lower, upper]
  refine ⟨le_div_self nonneg (by linarith) (by linarith), ?_, counted, ?_⟩
  · rw [max_le_iff]
    exact and_iff_right below
  · intro fewer
    have isCorrected : a.IsCorrected := by
      by_contra notCorrected
      exact absurd (counted notCorrected).2 (not_le.mpr fewer)
    exact ⟨corrected isCorrected, max_eq_right (below.trans fewer.le)⟩

/-- Linear counting of nine ones stays within its bounds. -/
theorem composite_within_bounds_nine :
    let s := mergedOnes ℝ 9
    s.Retraces (mergedOnes Float 9) ∧ s.estimatorKind = .composite ∧
      s.lowerBound .two ≤ s.estimate ∧ s.estimate ≤ s.upperBound .two := by
  intro s
  have run := retraces_mergedOnes 9
  obtain ⟨a, store⟩ : ∃ a, s.store = .registers a := ⟨_, rfl⟩
  have known := holds_mergedOnes 9
  rw [store] at known
  have linear := (linearCount_of_nine known).1
  obtain ⟨upper, lower, counted, _⟩ := composite_within_bounds run store (outOfOrder_united _) .two
  exact ⟨run, rfl, lower.mpr (counted linear).2, upper⟩

/-- Twelve ones are estimated at less than twelve, the lower bound. -/
theorem estimate_lt_lowerBound_twelve :
    let s := mergedOnes ℝ 12
    s.Retraces (mergedOnes Float 12) ∧ s.estimatorKind = .composite ∧
      ∀ deviation, s.estimate < s.lowerBound deviation := by
  intro s
  have run := retraces_mergedOnes 12
  obtain ⟨a, store⟩ : ∃ a, s.store = .registers a := ⟨_, rfl⟩
  have outOfOrder : s.outOfOrder = true := outOfOrder_united _
  have known := holds_mergedOnes 12
  rw [store] at known
  obtain ⟨exact, _, hit⟩ := run.registers store
  obtain ⟨precision, hits, _, estimate⟩ := ones_spec (by decide) known
  have isCorrected := isCorrected_of_ten (by decide) (by decide) known
  have less : a.adjusted < 12 := by
    have left := a.first_le_rawEstimate exact hit
    have right : Composite.rawEstimate sixteen a.currentTally.sum < BiasTable.raw sixteen 12 := by
      rw [estimate, raw_sixteen.2.2]
      norm_num
    rw [precision] at left
    rw [RegisterArray.adjusted, precision]
    exact (Composite.corrected_lt_corrected left right).trans_eq (corrected_sixteen (by decide))
  refine ⟨run, rfl, ?_⟩
  intro deviation
  have bound : s.lowerBound deviation = a.lowerBound true deviation := by
    rw [lowerBound, store, outOfOrder]
    rfl
  rw [estimate_of_outOfOrder store outOfOrder, (a.compositeEstimate_eq exact hit).1 isCorrected, bound,
    a.lowerBound_eq exact, hits]
  exact less.trans_le (le_max_right _ _)

/-- Further coupons lower neither candidate of the composite estimate, and once it is the corrected one it
stays so. The estimate falls just where linear counting gives way to a corrected estimate that is less. -/
theorem composite_falls_at_switch (run : s.Retraces f) (store : s.store = .registers a)
    (outOfOrder : s.outOfOrder = true) (stream : List Coupon) :
    ∃ b, (s.addCoupons stream).store = .registers b ∧
      (s.estimate = a.compositeEstimate ∧ (s.addCoupons stream).estimate = b.compositeEstimate) ∧
      (a.adjusted ≤ b.adjusted ∧ a.linearCount ≤ b.linearCount) ∧
      (a.IsCorrected → b.IsCorrected) ∧
      ((s.addCoupons stream).estimate < s.estimate ↔
        ¬a.IsCorrected ∧ b.IsCorrected ∧ b.adjusted < a.linearCount) := by
  obtain ⟨exact, _, hit⟩ := run.registers store
  let b := stream.foldl (fun a c => a.update c false) a
  have store' : (s.addCoupons stream).store = .registers b :=
    store_addCoupons_of_registers store outOfOrder stream
  have outOfOrder' : (s.addCoupons stream).outOfOrder = true := by
    rw [addCoupons_eq]
    exact outOfOrder
  have below : a.Below b := RegisterArray.below_updateAll exact.toSound stream false
  have exact' : b.Exact := RegisterArray.exact_updateAll exact stream false
  have reported := estimate_of_outOfOrder store outOfOrder
  have reported' := estimate_of_outOfOrder store' outOfOrder'
  have linear := (a.compositeEstimate_eq exact hit).2
  have corrected : b.IsCorrected → b.compositeEstimate = b.adjusted := Composite.estimate_of_isCorrected
  have candidates : a.adjusted ≤ b.adjusted ∧ a.linearCount ≤ b.linearCount :=
    ⟨below.adjusted_le exact exact', below.linearCount_le exact exact'⟩
  refine ⟨b, store', ⟨reported, reported'⟩, candidates, below.isCorrected exact exact', ?_⟩
  rw [reported, reported']
  constructor
  · intro falls
    have switched : ¬a.IsCorrected ∧ b.IsCorrected := by
      by_contra same
      exact absurd falls (not_lt.mpr (below.compositeEstimate_le exact exact' same))
    rw [linear switched.1, corrected switched.2] at falls
    exact ⟨switched.1, switched.2, falls⟩
  · rintro ⟨notCorrected, isCorrected, less⟩
    rw [linear notCorrected, corrected isCorrected]
    exact less

/-- Two more ones do not lower an estimate that is a corrected one already. -/
theorem composite_falls_at_switch_ten :
    let s := mergedOnes ℝ 10
    let more := [Coupon.pack 10 1, Coupon.pack 11 1]
    s.Retraces (mergedOnes Float 10) ∧ s.estimatorKind = .composite ∧
      s.estimate ≤ (s.addCoupons more).estimate := by
  intro s more
  have run := retraces_mergedOnes 10
  obtain ⟨a, store⟩ : ∃ a, s.store = .registers a := ⟨_, rfl⟩
  have known := holds_mergedOnes 10
  rw [store] at known
  have isCorrected := isCorrected_of_ten (by decide) (by decide) known
  obtain ⟨_, _, _, _, _, falls⟩ := composite_falls_at_switch run store (outOfOrder_united _) more
  refine ⟨run, rfl, ?_⟩
  by_contra lower
  exact (falls.mp (not_le.mp lower)).1 isCorrected

/-- The tenth one takes the estimate from linear counting to the corrected one, which is less. -/
theorem estimate_falls_tenth :
    let s := mergedOnes ℝ 9
    let c := Coupon.pack 9 1
    s.Retraces (mergedOnes Float 9) ∧ s.estimatorKind = .composite ∧ 1 ≤ c.value ∧
      (s.addCoupon c).estimate < s.estimate := by
  intro s c
  have run : s.Retraces (mergedOnes Float 9) := retraces_mergedOnes 9
  have kind : s.estimatorKind = .composite := rfl
  have valued : 1 ≤ c.value := by decide
  obtain ⟨a, store⟩ : ∃ a, s.store = .registers a := ⟨_, rfl⟩
  have outOfOrder : s.outOfOrder = true := outOfOrder_united _
  have known : s.store.Holds sixteen (Coupon.row 9 1) := holds_mergedOnes 9
  clear_value s
  rw [store] at known
  obtain ⟨exact, _, hit⟩ := run.registers store
  obtain ⟨linear, large⟩ := linearCount_of_nine known
  have before : 12.6 < s.estimate := by
    rw [estimate_of_outOfOrder store outOfOrder, (a.compositeEstimate_eq exact hit).2 linear]
    exact large
  have after : (s.addCoupon c).estimate ≤ 10 := by
    have store' : (s.addCoupon c).store = .registers (a.update c false) :=
      store_addCoupon_of_registers store outOfOrder c
    have same : ∀ d, d ∈ c :: Coupon.row 9 1 ↔ d ∈ Coupon.row 10 1 := by
      intro d
      have all : Coupon.row 10 1 = Coupon.row 9 1 ++ [c] := rfl
      rw [all, List.mem_append, List.mem_singleton, List.mem_cons, or_comm]
    have known' : (Store.registers (a.update c false)).Holds sixteen (Coupon.row 10 1) :=
      (Store.holds_update known valued false).congr same
    obtain ⟨exact', _, hit'⟩ := (run.addCoupon valued).registers store'
    obtain ⟨precision, _, _, estimate⟩ := ones_spec (by decide) known'
    have isCorrected := isCorrected_of_ten (by decide) (by decide) known'
    have right : Composite.rawEstimate sixteen (a.update c false).currentTally.sum ≤
        BiasTable.raw sixteen 10 := by
      rw [estimate, raw_sixteen.2.1]
      norm_num
    rw [estimate_of_outOfOrder store' outOfOrder,
      (RegisterArray.compositeEstimate_eq exact' hit').1 isCorrected, RegisterArray.adjusted, precision]
    exact (Composite.corrected_le_corrected right).trans_eq (corrected_sixteen (by decide))
  exact ⟨run, kind, valued, after.trans_lt (lt_trans (by norm_num) before)⟩

end

end Sketch

end DistinctCount
