import DistinctCount.Proofs.Growth
import DistinctCount.Proofs.Retracing

/-! Estimates lie within their bounds. Coupons are bounded by curves on both sides of their own; a history
in force has credited each register that was hit, so no bound that these registers hold up exceeds it. -/

namespace DistinctCount

namespace RelativeError

theorem quantiles_bounds : ∀ index < 27, ∀ outOfOrder, 0 < (quantiles .lower outOfOrder).getD index 0 ∧
    0 < (quantiles .upper outOfOrder).getD index 0 ∧ (quantiles .upper outOfOrder).getD index 0 < 10 ^ 9 := by
  decide

theorem quantileIndex_lt {p : Precision} (measured : p.lg ≤ measuredUpTo) (deviation : Deviation) :
    quantileIndex p deviation < 27 := by
  have : measuredUpTo = 12 := rfl
  have : deviation.toNat ≤ 3 := by cases deviation <;> decide
  unfold quantileIndex
  omega

/-- Beyond the measured quantiles, the registers are so many that three standard errors stay below one. -/
theorem asymptotic_bounds {p : Precision} (fine : measuredUpTo < p.lg) (outOfOrder : Bool)
    (deviation : Deviation) :
    0 < (deviation.toNat * factor outOfOrder / Real.sqrt p.size : ℝ) ∧
      (deviation.toNat * factor outOfOrder / Real.sqrt p.size : ℝ) < 1 := by
  have count : (1 : ℝ) ≤ deviation.toNat ∧ (deviation.toNat : ℝ) ≤ 3 := by
    cases deviation <;> norm_num [Deviation.toNat]
  have scale : (0 : ℝ) < factor outOfOrder ∧ (factor outOfOrder : ℝ) < 2 := by
    cases outOfOrder <;> norm_num [factor, Unrounded.decimal_eq]
  have many : (6 : ℝ) < Real.sqrt p.size := by
    have least : 2 ^ 13 ≤ p.size := Nat.pow_le_pow_right Nat.two_pos fine
    have least' : ((2 ^ 13 : Nat) : ℝ) ≤ p.size := Nat.cast_le.mpr least
    refine Real.lt_sqrt_of_sq_lt (lt_of_lt_of_le ?_ least')
    norm_num
  constructor
  · have := count.1
    have := scale.1
    positivity
  · rw [div_lt_one (by linarith)]
    nlinarith

end RelativeError

open RelativeError in
/-- Estimates stay positive and finite when they are divided by one plus an error. -/
theorem relativeError_bounds (outOfOrder : Bool) (p : Precision) (deviation : Deviation) :
    0 < (relativeError .lower outOfOrder p deviation : ℝ) ∧
      -1 < (relativeError .upper outOfOrder p deviation : ℝ) ∧
      (relativeError .upper outOfOrder p deviation : ℝ) < 0 := by
  by_cases measured : p.lg ≤ measuredUpTo
  · obtain ⟨lower, upper, proper⟩ := quantiles_bounds _ (quantileIndex_lt measured deviation) outOfOrder
    simp only [relativeError, if_pos measured, signed, Unrounded.decimal_eq]
    generalize (quantiles .lower outOfOrder).getD (quantileIndex p deviation) 0 = below at lower ⊢
    generalize (quantiles .upper outOfOrder).getD (quantileIndex p deviation) 0 = above at upper proper ⊢
    have proper' : (above : ℝ) < 10 ^ 9 := by exact_mod_cast proper
    refine ⟨by positivity, neg_lt_neg ?_, neg_neg_of_pos (by positivity)⟩
    exact (div_lt_one (by positivity)).mpr proper'
  · obtain ⟨positive, proper⟩ := asymptotic_bounds (Nat.lt_of_not_le measured) outOfOrder deviation
    simp only [relativeError, if_neg measured, signed, Unrounded.ofNat_eq, neg_mul, neg_div]
    exact ⟨positive, neg_lt_neg proper, neg_neg_of_pos positive⟩

namespace CouponCurve

variable {α : Type} [Unrounded α]

theorem deviation_bounds (deviation : Deviation) :
    (0 : α) ≤ deviation.toNat * relativeError ∧ (deviation.toNat * relativeError : α) < 1 := by
  have error : (relativeError : α) = 409 / 10 ^ 3 / 8192 := rfl
  have most : (deviation.toNat : α) ≤ 3 := by cases deviation <;> norm_num [Deviation.toNat]
  have least : (0 : α) ≤ deviation.toNat := Nat.cast_nonneg _
  rw [error]
  constructor
  · positivity
  · linarith

theorem lowerBound_eq (count : Nat) (deviation : Deviation) :
    (lowerBound count deviation : α) =
      max (count : α) (mapped (count : α) / (1 + deviation.toNat * relativeError)) := by
  rw [lowerBound, Unrounded.larger_eq]
  simp only [Unrounded.ofNat_eq, Nat.cast_one]

theorem upperBound_eq (count : Nat) (deviation : Deviation) :
    (upperBound count deviation : α) =
      max (count : α) (mapped (count : α) / (1 - deviation.toNat * relativeError)) := by
  rw [upperBound, Unrounded.larger_eq]
  simp only [Unrounded.ofNat_eq, Nat.cast_one]

theorem lowerBound_le_estimate (count : Nat) (deviation : Deviation) :
    (lowerBound count deviation : α) ≤ estimate count := by
  obtain ⟨nonneg, _⟩ := deviation_bounds (α := α) deviation
  rw [estimate_eq, lowerBound_eq]
  refine max_le (le_max_left _ _) ?_
  rcases le_total 0 (mapped (count : α)) with above | below
  · exact (div_le_self above (le_add_of_nonneg_right nonneg)).trans (le_max_right _ _)
  · have nonpos := div_nonpos_of_nonpos_of_nonneg below (add_nonneg zero_le_one nonneg)
    exact (nonpos.trans (Nat.cast_nonneg count)).trans (le_max_left _ _)

theorem estimate_le_upperBound (count : Nat) (deviation : Deviation) :
    (estimate count : α) ≤ upperBound count deviation := by
  obtain ⟨nonneg, small⟩ := deviation_bounds (α := α) deviation
  rw [estimate_eq, upperBound_eq]
  refine max_le (le_max_left _ _) ?_
  rcases le_total 0 (mapped (count : α)) with above | below
  · exact (le_div_self above (sub_pos.mpr small) (sub_le_self _ nonneg)).trans (le_max_right _ _)
  · exact (below.trans (Nat.cast_nonneg count)).trans (le_max_left _ _)

end CouponCurve

namespace RegisterArray

section

variable {α : Type}

/-- The number of registers that some coupon has hit. -/
def hits (a : RegisterArray α) : Nat := a.values.countP (0 < ·)

theorem register_lt_length (a : RegisterArray α) (c : Coupon) :
    c.register a.precision.size < a.values.length := by
  rw [length_values]
  exact Nat.mod_lt _ a.precision.size_pos

end

section

variable {α : Type} [Scalar α] {a : RegisterArray α} {p : Precision} {c : Coupon}

theorem hit_scan (a : RegisterArray α) : Composite.hit a.precision a.scan = a.hits := by
  have all := List.length_eq_countP_add_countP (fun value => decide (0 < value)) (l := a.values)
  have untouched : a.values.countP (fun value => decide ¬decide (0 < value) = true) = a.values.count 0 := by
    rw [List.count_eq_countP]
    exact List.countP_congr (fun value _ => by simp)
  rw [length_values, untouched] at all
  rw [Composite.hit, scan, Composite.unhit_scan, hits, all, Nat.add_sub_cancel]

theorem hits_zeros (p : Precision) (width : Width) : (zeros p width : RegisterArray α).hits = 0 := by
  obtain ⟨_, _, read⟩ := sound_zeros (α := α) p width
  rw [hits, values_replicate (fun slot _ => read slot), List.countP_replicate]
  rfl

theorem values_update (sound : a.Sound) (c : Coupon) (inOrder : Bool) :
    (a.update c inOrder).values = a.values.set (c.register a.precision.size)
      (max (a.get (c.register a.precision.size)) c.value) := by
  obtain ⟨_, precision, _, read⟩ := update_spec sound c inOrder
  refine values_set precision (fun slot inside => ?_)
  rw [read slot inside]
  split_ifs with here
  · rw [here]
  · rfl

theorem hits_update_le (sound : a.Sound) (c : Coupon) (inOrder : Bool) :
    (a.update c inOrder).hits ≤ a.hits + 1 := by
  rw [hits, hits, values_update sound, List.countP_set (a.register_lt_length c)]
  split_ifs <;> omega

theorem hits_update_of_le (sound : a.Sound) (inOrder : Bool)
    (held : c.value ≤ a.get (c.register a.precision.size)) : (a.update c inOrder).hits = a.hits := by
  rw [hits, hits, values_update sound, max_eq_left held, ← getElem_values a (a.register_lt_length c),
    List.set_getElem_self]

theorem hits_updateAll_le (sound : a.Sound) (coupons : List Coupon) (inOrder : Bool) :
    (coupons.foldl (fun a c => a.update c inOrder) a).hits ≤ a.hits + coupons.length := by
  induction coupons generalizing a with
  | nil => exact Nat.le_refl _
  | cons c rest ih =>
    have step := hits_update_le sound c inOrder
    have run := ih (update_spec sound c inOrder).1
    simp only [List.foldl_cons, List.length_cons]
    omega

end

variable {α : Type} [Unrounded α] {a : RegisterArray α}

/-- Each register that is hit for the first time is credited with at least one item. -/
theorem hits_le_historic_update (exact : a.Exact) (covered : (a.hits : α) ≤ a.historic) (c : Coupon) :
    ((a.update c true).hits : α) ≤ (a.update c true).historic := by
  rw [historic_update exact.toSound]
  by_cases larger : a.get (c.register a.precision.size) < c.value
  · rw [if_pos ⟨rfl, larger⟩]
    calc ((a.update c true).hits : α)
      _ ≤ (a.hits + 1 : Nat) := Nat.cast_le.mpr (hits_update_le exact.toSound c true)
      _ = (a.hits : α) + 1 := Nat.cast_succ _
      _ ≤ _ := add_le_add covered (one_le_credit exact)
  · rw [if_neg (fun change => larger change.2), hits_update_of_le exact.toSound true (Nat.le_of_not_lt larger)]
    exact covered

variable {deviation : Deviation}

theorem lowerBound_eq (exact : a.Exact) (outOfOrder : Bool) (deviation : Deviation) :
    a.lowerBound outOfOrder deviation = max
      (a.estimate outOfOrder / (1 + relativeError .lower outOfOrder a.precision deviation)) (a.hits : α) := by
  rw [RegisterArray.lowerBound, Composite.lowerBound, Unrounded.larger_eq, exact.currentTally, hit_scan]
  simp only [Unrounded.ofNat_eq, Nat.cast_one]

theorem upperBound_eq (a : RegisterArray α) (outOfOrder : Bool) (deviation : Deviation) :
    a.upperBound outOfOrder deviation =
      a.estimate outOfOrder / (1 + relativeError .upper outOfOrder a.precision deviation) := by
  rw [RegisterArray.upperBound, Composite.upperBound]
  simp only [Unrounded.ofNat_eq, Nat.cast_one]

theorem lowerBound_le_historic (exact : a.Exact) (covered : (a.hits : α) ≤ a.historic)
    (error : 0 < (relativeError .lower false a.precision deviation : α)) :
    a.lowerBound false deviation ≤ a.historic := by
  have nonneg : 0 ≤ a.historic := (Nat.cast_nonneg _).trans covered
  rw [lowerBound_eq exact]
  exact max_le (div_le_self nonneg (le_add_of_nonneg_right error.le)) covered

theorem historic_le_upperBound (covered : (a.hits : α) ≤ a.historic)
    (error : -1 < (relativeError .upper false a.precision deviation : α))
    (negative : (relativeError .upper false a.precision deviation : α) < 0) :
    a.historic ≤ a.upperBound false deviation := by
  have nonneg : 0 ≤ a.historic := (Nat.cast_nonneg _).trans covered
  rw [upperBound_eq]
  exact le_div_self nonneg (by linarith) (by linarith)

end RegisterArray

namespace Store

variable {α : Type} [Unrounded α] {s : Store α} {p : Precision} {c : Coupon} {coupons kept : List Coupon}

/-- If there are registers, their history accounts for each one that was hit. -/
def Covered : Store α → Prop
  | .registers array => (array.hits : α) ≤ array.historic
  | _ => True

theorem covered_of_coupons (content : s.content = .coupons kept) : s.Covered := by
  cases s with
  | list | set => trivial
  | registers => cases content

/-- Coupons may collide in a register, and count for more items than there are of them. -/
theorem covered_promoted (p : Precision) (width : Width) (coupons : List Coupon) :
    (registers (promoted p width coupons coupons.length) : Store α).Covered := by
  have few := RegisterArray.hits_updateAll_le (RegisterArray.sound_zeros (α := α) p width).1 coupons false
  rw [RegisterArray.hits_zeros, Nat.zero_add] at few
  exact (Nat.cast_le.mpr few).trans (CouponCurve.le_estimate coupons.length)

theorem covered_update (holds : s.Holds p coupons) (covered : s.Covered) (valued : 1 ≤ c.value) :
    (s.update p c true).Covered := by
  cases content : s.content with
  | coupons kept =>
    have admits := update_admits holds.sound content (Coupon.ne_empty_of_valued valued) true
    by_cases known : c ∈ kept
    · rw [admits.known known]
      exact covered
    · obtain ⟨all, _, _, made⟩ := admits.fresh known
      cases after : (s.update p c true).content with
      | coupons kept' => exact covered_of_coupons after
      | registers array =>
        rw [after] at made
        rw [eq_of_content after, show array = promoted p s.width all all.length from made]
        exact covered_promoted p s.width all
  | registers array =>
    obtain rfl := eq_of_content content
    exact RegisterArray.hits_le_historic_update holds.registers.1 covered c

theorem Alike.covered {s t : Store α} (alike : s.Alike t) (covered : t.Covered) : s.Covered := by
  cases alike with
  | list | set => trivial
  | registers alike =>
    rw [Covered, RegisterArray.hits, alike.values, alike.historic]
    exact covered

theorem Twin.covered {s t : Store α} (twin : s.Twin t) (covered : t.Covered) : s.Covered := by
  cases twin with
  | list | set => trivial
  | registers twin => exact Alike.covered (.registers ⟨twin.precision, twin.values, twin.historic⟩) covered

end Store

namespace Sketch

variable {α : Type} [Unrounded α] {s : Sketch α} {f : Sketch Float}

/-- Registers have seen a coupon, and hold its value. -/
theorem Retraces.registers {array : RegisterArray α} (run : s.Retraces f)
    (store : s.store = .registers array) : array.Exact ∧ array.precision = s.precision ∧ 0 < array.hits := by
  obtain ⟨coupons, holds⟩ := run.holds
  have known := holds.store
  rw [store] at known
  obtain ⟨exact, precision, mode, bounds⟩ := known.registers
  refine ⟨exact, precision, ?_⟩
  cases coupons with
  | nil => cases mode
  | cons c rest =>
    have inside : c.register s.precision.size < s.precision.size := Nat.mod_lt _ s.precision.size_pos
    have valued := holds.valued c (List.mem_cons_self ..)
    have held := (bounds _ inside _).mp le_rfl c (List.mem_cons_self ..) rfl
    rw [RegisterArray.hits, List.countP_pos_iff]
    refine ⟨array.get (c.register s.precision.size), ?_, decide_eq_true (valued.trans held)⟩
    exact RegisterArray.mem_values.mpr ⟨_, precision ▸ inside, rfl⟩

theorem Retraces.covered (run : s.Retraces f) (inOrder : s.outOfOrder = false) : s.store.Covered := by
  induction run with
  | empty p width seed => trivial
  | @addCoupon s f c run valued covered =>
    obtain ⟨coupons, holds⟩ := run.holds
    have inOrder' : s.outOfOrder = false := inOrder
    have next := Store.covered_update holds.store (covered inOrder) valued
    rw [Sketch.addCoupon, inOrder']
    exact next
  | copyAs width run covered =>
    obtain ⟨coupons, holds⟩ := run.holds
    exact (Store.alike_copyAs holds.store width).covered (covered inOrder)
  | primed _ covered => exact (Store.alike_primed _).covered (covered inOrder)
  | settled run covered =>
    obtain ⟨coupons, holds⟩ := run.holds
    exact (Store.alike_settle holds.store).covered (covered inOrder)
  | union _ _ _ merged =>
    -- folding may have reset the history, but it is void in what comes of a merge
    rw [outOfOrder_merge merged] at inOrder
    cases inOrder
  | @reloaded s f g layout run loaded covered =>
    obtain ⟨twin, _, known⟩ := run.reachable.twin_of_loaded loaded
    have same : s.outOfOrder = g.outOfOrder := (congrArg outOfOrder run.erase).trans twin.outOfOrder.symm
    exact (Store.twin_reread (congrArg store run.erase) twin.store).covered (covered (same.trans inOrder))

/-- An estimate from coupons or from a history in force lies within its bounds. No history is less than the
number of registers that were hit, so that holding a bound up by these never takes it above the estimate. -/
theorem estimate_within_bounds (run : s.Retraces f) (inForce : s.estimatorKind ≠ .composite) :
    (∀ deviation,
      (0 < (relativeError .lower false s.precision deviation : α) →
        s.lowerBound deviation ≤ s.estimate) ∧
      (-1 < (relativeError .upper false s.precision deviation : α) →
        (relativeError .upper false s.precision deviation : α) < 0 →
        s.estimate ≤ s.upperBound deviation)) ∧
    ∀ array, s.store = .registers array → (array.hits : α) ≤ array.historic := by
  obtain ⟨coupons, holds, _⟩ := run.holds
  have covered := run.covered
  obtain ⟨p, seed, outOfOrder, store⟩ := s
  cases store with
  | list list width =>
    exact ⟨fun deviation => ⟨fun _ => CouponCurve.lowerBound_le_estimate list.count deviation,
      fun _ _ => CouponCurve.estimate_le_upperBound list.count deviation⟩, fun _ same => by cases same⟩
  | set set width =>
    exact ⟨fun deviation => ⟨fun _ => CouponCurve.lowerBound_le_estimate set.count deviation,
      fun _ _ => CouponCurve.estimate_le_upperBound set.count deviation⟩, fun _ same => by cases same⟩
  | registers array =>
    cases outOfOrder with
    | true => exact absurd rfl inForce
    | false =>
      have hits : (array.hits : α) ≤ array.historic := covered rfl
      obtain ⟨exact, precision, _⟩ := holds.registers
      cases precision
      refine ⟨fun deviation => ⟨fun error => array.lowerBound_le_historic exact hits error,
        fun error negative => array.historic_le_upperBound hits error negative⟩, fun _ same => ?_⟩
      cases same
      exact hits

/-- Eight coupons in the registers of a coarse sketch that went through an image. -/
theorem estimate_within_bounds_reloaded :
    let stream := (List.range 8).map (Coupon.pack · 5)
    let f : Sketch Float := (empty ⟨4, by decide, by decide⟩ .four .standard).addCoupons stream
    let s : Sketch ℝ := ((empty ⟨4, by decide, by decide⟩ .four .standard).addCoupons stream).reread f.primed
    s.Retraces f.primed ∧ s.estimatorKind = .historic ∧
      s.lowerBound .two ≤ s.estimate ∧ s.estimate ≤ s.upperBound .two := by
  intro stream f s
  have valued : ∀ c ∈ stream, 1 ≤ c.value := by decide
  have run := (Retraces.empty (α := ℝ) ⟨4, by decide, by decide⟩ .four .standard).addCoupons stream valued
  obtain ⟨_, holds⟩ := run.reachable.holds
  obtain ⟨t, loaded, _, _, whole⟩ := ofImage_image holds .updatable
  rw [whole rfl] at loaded
  have reread : s.Retraces f.primed := .reloaded .updatable run loaded
  have kind : s.estimatorKind = .historic := rfl
  obtain ⟨positive, proper, negative⟩ := relativeError_bounds false s.precision .two
  have bounds := (estimate_within_bounds reread (by rw [kind]; decide)).1 .two
  exact ⟨reread, kind, bounds.1 positive, bounds.2 proper negative⟩

end Sketch

end DistinctCount
