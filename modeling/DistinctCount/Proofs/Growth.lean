import DistinctCount.Proofs.Interpolating
import DistinctCount.Proofs.WidthIndependence

namespace DistinctCount

namespace CouponCurve

variable {α : Type} [Unrounded α] {few many : Nat}

private def rationalCoupons (index : Nat) : ℚ := (points.getD index (0, 0, 0)).1

private def rationalItems (index : Nat) : ℚ :=
  (points.getD index (0, 0, 0)).2.1 / 10 ^ (points.getD index (0, 0, 0)).2.2

/-- The curve hardly bends: it is nearly a straight line of slope one. -/
theorem smooth_points : Interpolation.Smooth (coupons : Nat → α) items points.size := by
  have size : points.size = 40 := rfl
  have cast : (coupons : Nat → α) = fun index => (rationalCoupons index : α) := by
    funext index
    exact (Rat.cast_natCast _).symm
  have cast' : (items : Nat → α) = fun index => (rationalItems index : α) := by
    funext index
    simp only [rationalItems]
    push_cast
    rfl
  have ascending : ∀ i < 39, rationalCoupons i < rationalCoupons (i + 1) := by decide +kernel
  have gentle : ∀ start < 37, Interpolation.Gentle (fun i => rationalCoupons (start + i))
      (fun i => rationalItems (start + i)) := by decide +kernel
  rw [cast, cast', size]
  refine ⟨by decide, fun i inside => ?_, fun start inside => ?_⟩
  · exact_mod_cast ascending i (by omega)
  · exact (gentle start (by omega)).cast

/-- The last point of the curve. More coupons than this fit in no sketch. -/
def lastCount : Nat := 10200000

theorem mapped_lt_mapped {x y : α} (left : 0 ≤ x) (less : x < y) (right : y ≤ lastCount) :
    mapped x < mapped y := by
  have first : (coupons 0 : α) = 0 := Nat.cast_zero
  have last : (coupons (points.size - 1) : α) = lastCount := rfl
  exact Interpolation.interpolate_lt_interpolate smooth_points (first ▸ left) less (last ▸ right)

theorem estimate_eq (count : Nat) : (estimate count : α) = max (count : α) (mapped (count : α)) :=
  Unrounded.larger_eq _ _

theorem estimate_lt_estimate (less : few < many) (inside : many ≤ lastCount) :
    (estimate few : α) < estimate many := by
  rw [estimate_eq, estimate_eq]
  have larger : (few : α) < many := Nat.cast_lt.mpr less
  exact max_lt_max larger (mapped_lt_mapped (Nat.cast_nonneg few) larger (Nat.cast_le.mpr inside))

theorem le_estimate (count : Nat) : (count : α) ≤ estimate count := by
  rw [estimate_eq]
  exact le_max_left _ _

end CouponCurve

namespace RegisterArray

variable {α : Type} [Unrounded α] {a : RegisterArray α}

theorem sum_scan_eq (a : RegisterArray α) :
    a.scan.sum = ∑ slot ∈ Finset.range a.precision.size, (2⁻¹ : α) ^ a.get slot := by
  rw [scan, Unrounded.sum_scan, values, List.map_map]
  rfl

/-- A change is credited with at least one item, as it is never more than certain. -/
theorem one_le_credit (exact : a.Exact) : (1 : α) ≤ Scalar.ofNat a.precision.size / a.currentTally.sum := by
  rw [exact.currentTally, RegisterArray.scan, one_le_div (Unrounded.sum_scan_pos _ a.values_ne_nil)]
  exact (Unrounded.sum_scan_le _ a.values).trans_eq (congrArg Nat.cast a.length_values)

end RegisterArray

namespace Store

section

variable {α : Type} [Analytic α] {s : Store α} {count : Nat}

theorem estimate_of_couponCount (counted : s.couponCount? = some count) (outOfOrder : Bool) :
    s.estimate outOfOrder = CouponCurve.estimate count := by
  cases s with
  | list | set => exact congrArg CouponCurve.estimate (Option.some.inj counted)
  | registers => cases counted

/-- What a coupon tells that a store does not know: it is not among the coupons, or its register holds
a smaller value. -/
def Gains {α : Type} (s : Store α) (c : Coupon) : Prop :=
  match s.content with
  | .coupons kept => c ∉ kept
  | .registers array => array.get (c.register array.precision.size) < c.value

end

variable {α : Type} [Unrounded α] {s : Store α} {p : Precision} {c : Coupon} {coupons kept : List Coupon}

/-- No sketch keeps so many coupons that the curve would end. -/
theorem length_lt_lastCount (sound : s.Sound p) (content : s.content = .coupons kept) :
    kept.length < CouponCurve.lastCount := by
  obtain ⟨_, _, counted, _⟩ := sound_coupons sound content
  cases s with
  | list list width =>
    obtain ⟨_, _, short⟩ := sound
    rw [← Option.some.inj counted]
    exact short.trans (by decide)
  | set set width =>
    obtain ⟨inner, _, most⟩ := sound_set sound
    have fine : lgMaxSetSize p ≤ 21 := Nat.le_trans (Nat.sub_le _ _) p.le_twentyOne
    have size : set.table.size ≤ 2 ^ 21 := Nat.pow_le_pow_right Nat.two_pos (most.trans fine)
    rw [← Option.some.inj counted]
    exact (inner.room.trans_le size).trans (by decide)
  | registers => cases content

/-- A coupon that is new makes the estimate larger, promotions included. -/
private theorem estimate_lt_of_fresh (sound : s.Sound p) (content : s.content = .coupons kept)
    (valued : 1 ≤ c.value) (fresh : c ∉ kept) :
    s.estimate false < (s.update p c true).estimate false := by
  obtain ⟨_, _, counted, _⟩ := sound_coupons sound content
  have admits := update_admits sound content (Coupon.ne_empty_of_valued valued) true
  obtain ⟨all, perm, _, made⟩ := admits.fresh fresh
  have length : all.length = kept.length + 1 := perm.length_eq
  have after : (s.update p c true).estimate false = CouponCurve.estimate all.length := by
    cases content' : (s.update p c true).content with
    | coupons kept' =>
      rw [content'] at made
      obtain ⟨_, _, counted', _⟩ := sound_coupons admits.sound content'
      rw [estimate_of_couponCount counted', show kept' = all from made]
    | registers array =>
      rw [content'] at made
      rw [eq_of_content content', show array = promoted p s.width all all.length from made]
      rfl
  rw [estimate_of_couponCount counted, after, length]
  exact CouponCurve.estimate_lt_estimate (Nat.lt_succ_self _) (length_lt_lastCount sound content)

/-- The estimate stays as it is, unless the coupon tells something new. -/
theorem estimate_update (holds : s.Holds p coupons) (valued : 1 ≤ c.value) :
    (s.Gains c → s.estimate false < (s.update p c true).estimate false) ∧
      (¬s.Gains c → (s.update p c true).estimate false = s.estimate false) := by
  cases content : s.content with
  | coupons kept =>
    simp only [Gains, content]
    refine ⟨estimate_lt_of_fresh holds.sound content valued, fun known => ?_⟩
    rw [(update_admits holds.sound content (Coupon.ne_empty_of_valued valued) true).known (not_not.mp known)]
  | registers array =>
    obtain rfl := eq_of_content content
    have exact := holds.registers.1
    have after : ((Store.registers array).update p c true).estimate false = (array.update c true).historic :=
      rfl
    rw [after, RegisterArray.historic_update exact.toSound]
    simp only [Gains, content, true_and]
    refine ⟨fun larger => ?_, fun held => if_neg held⟩
    rw [if_pos larger]
    exact lt_add_of_pos_right _ (zero_lt_one.trans_le (RegisterArray.one_le_credit exact))

end Store

namespace Sketch

variable {α : Type} [Unrounded α]

/-- The estimate of a sketch that sees a stream never falls, and it rises with exactly those coupons that
are new to the sketch or raise a register. -/
theorem estimate_addCoupon_monotone (p : Precision) (width : Width) (seed : Seed) (earlier : List Coupon)
    (c : Coupon) (valued : ∀ d ∈ earlier, 1 ≤ d.value) (valued' : 1 ≤ c.value) :
    let s : Sketch α := (empty p width seed).addCoupons earlier
    s.estimate ≤ (s.addCoupon c).estimate ∧ (s.estimate < (s.addCoupon c).estimate ↔ s.store.Gains c) := by
  intro s
  have holds := (holds_addCoupons (holds_empty (α := α) p width seed) earlier valued).1
  have inOrder : s.outOfOrder = false := congrArg outOfOrder (addCoupons_eq (empty p width seed) earlier)
  have before : s.estimate = s.store.estimate false := by rw [estimate, inOrder]
  have after : (s.addCoupon c).estimate = (s.store.update s.precision c true).estimate false := by
    rw [estimate, addCoupon, inOrder]
    rfl
  obtain ⟨rises, stays⟩ := Store.estimate_update holds.store valued'
  rw [before, after]
  by_cases gains : s.store.Gains c
  · exact ⟨(rises gains).le, iff_of_true (rises gains) gains⟩
  · exact ⟨(stays gains).ge, iff_of_false (stays gains).not_gt gains⟩

/-- The eighth coupon of a coarse sketch takes its list to registers, with a larger estimate. -/
theorem estimate_addCoupon_monotone_eighth :
    let s : Sketch ℝ := (empty ⟨4, by decide, by decide⟩ .four .standard).addCoupons
      ((List.range 7).map (Coupon.pack · 5))
    ((∀ d ∈ (List.range 7).map (Coupon.pack · 5), 1 ≤ d.value) ∧ 1 ≤ (Coupon.pack 7 5).value) ∧
      s.estimate < (s.addCoupon (.pack 7 5)).estimate := by
  intro s
  have fresh : s.store.Gains (.pack 7 5) := by
    change Coupon.pack 7 5 ∉ (List.range 7).map (Coupon.pack · 5)
    decide
  exact ⟨⟨by decide, by decide⟩, (estimate_addCoupon_monotone ⟨4, by decide, by decide⟩ .four .standard
    ((List.range 7).map (Coupon.pack · 5)) (.pack 7 5) (by decide) (by decide)).2.mpr fresh⟩

end Sketch

end DistinctCount
