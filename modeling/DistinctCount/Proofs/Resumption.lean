import DistinctCount.Proofs.RoundTrip

namespace DistinctCount

namespace RegisterArray

variable {α : Type} [Scalar α] {a b : RegisterArray α} {slot other new : Nat}

theorem twin_settle (twin : a.Twin b) (left : a.Exact) (right : b.Exact) : a.settle.Twin b.settle := by
  obtain ⟨_, settled, width, tally, read⟩ := settle_spec left.toSound
  obtain ⟨_, settled', width', tally', read'⟩ := settle_spec right.toSound
  refine ⟨?_, width.trans (twin.width.trans width'.symm), ?_, ?_, ?_, ?_⟩
  · rw [precision_settle, precision_settle, twin.precision]
  · rw [values_congr (precision_settle a) read, values_congr (precision_settle b) read', twin.values]
  · rw [tally, tally', twin.currentTally left right]
  · rw [historic_settle, historic_settle, twin.historic]
  · rw [settled_iff.mp settled, settled_iff.mp settled']

theorem twin_credited (twin : a.Twin b) (inOrder : Bool) : (a.credited inOrder).Twin (b.credited inOrder) := by
  refine ⟨twin.precision, twin.width, twin.values, twin.tally, ?_, twin.pending⟩
  simp only [credited, credit, twin.precision, twin.tally, twin.historic]

theorem twin_raise (twin : a.Twin b) (left : a.Sound) (right : b.Sound) (settled : a.upkeep = .settled)
    (inside : slot < b.precision.size) (larger : b.get slot < new) (bound : new ≤ Coupon.maxValue) :
    (a.raise slot (a.get slot) new).Twin (b.raise slot (b.get slot) new) := by
  have settled' : b.upkeep = .settled := settled_iff.mpr (twin.pending ▸ settled_iff.mp settled)
  have same := twin.get inside
  have inside' : slot < a.precision.size := twin.precision ▸ inside
  obtain ⟨_, width, read⟩ := raise_spec left settled inside' (same ▸ larger) bound
  obtain ⟨_, width', read'⟩ := raise_spec right settled' inside larger bound
  have widths : (a.raise slot (a.get slot) new).width = (b.raise slot (b.get slot) new).width :=
    width.trans (twin.width.trans width'.symm)
  have tally : (a.raise slot (a.get slot) new).tally = (b.raise slot (b.get slot) new).tally := by
    simp only [raise, same, twin.tally]
  refine ⟨twin.precision, widths, ?_, tally, twin.historic, ?_⟩
  · have values : (a.raise slot (a.get slot) new).values = a.values.set slot new := values_set rfl read
    have values' : (b.raise slot (b.get slot) new).values = b.values.set slot new :=
      values_set rfl read'
    rw [values, values', twin.values]
  · rw [isPending_raise, isPending_raise, tally, widths, same, twin.tally]

theorem twin_update (twin : a.Twin b) (left : a.Exact) (right : b.Exact) (c : Coupon) (inOrder : Bool) :
    (a.update c inOrder).Twin (b.update c inOrder) := by
  have settled := twin_settle twin left right
  have inside : c.register b.precision.size < b.precision.size := Nat.mod_lt _ b.precision.size_pos
  have same := twin.get inside
  obtain ⟨_, upkeep, _⟩ := settle_spec left.toSound
  obtain ⟨_, _, _, _, read⟩ := settle_spec right.toSound
  rcases update_cases right.toSound c inOrder with ⟨held, kept⟩ | ⟨larger, raised⟩
  · rcases update_cases left.toSound c inOrder with ⟨_, kept'⟩ | ⟨larger, _⟩
    · rw [kept, kept']
      exact settled
    · rw [twin.precision, same] at larger
      exact absurd held (Nat.not_le_of_lt larger)
  · rcases update_cases left.toSound c inOrder with ⟨held, _⟩ | ⟨_, raised'⟩
    · rw [twin.precision, same] at held
      exact absurd held (Nat.not_le_of_lt larger)
    · rw [raised, raised', twin.precision]
      refine twin_raise (twin_credited settled inOrder)
        (sound_credited (exact_settle left).toSound inOrder)
        (sound_credited (exact_settle right).toSound inOrder) upkeep ?_ ?_ c.value_le_maxValue
      · rw [show (b.settle.credited inOrder).precision = b.settle.precision from rfl, precision_settle]
        exact inside
      · rw [← read _ inside] at larger
        exact larger

private theorem isPending_raise_of_zero (sound : a.Sound) (settled : a.upkeep = .settled)
    (inside : slot < a.precision.size) (larger : a.get slot < new) (bound : new ≤ Coupon.maxValue)
    (below : other < a.precision.size) (zero : (a.raise slot (a.get slot) new).get other = 0) :
    (a.raise slot (a.get slot) new).isPending = false := by
  obtain ⟨kept, _⟩ := raise_spec sound settled inside larger bound
  have base : (a.raise slot (a.get slot) new).tally.base = a.tally.base := Tally.base_replace ..
  have least := kept.base_le_get other
  rw [zero, base, Nat.le_zero] at least
  have member : a.tally.base ∈ (a.raise slot (a.get slot) new).values :=
    mem_values.mpr ⟨other, below, zero.trans least.symm⟩
  rw [isPending_raise, decide_eq_false_iff_not]
  rintro ⟨_, gone, _⟩
  rw [atBase_raise sound settled inside larger bound] at gone
  exact List.count_eq_zero.mp gone member

/-- No change puts the tally off while a register is zero. -/
theorem isPending_update_of_zero (sound : a.Sound) (c : Coupon) (inOrder : Bool)
    (below : other < a.precision.size) (zero : (a.update c inOrder).get other = 0) :
    (a.update c inOrder).isPending = false := by
  obtain ⟨sound', settled, _, _, read⟩ := settle_spec sound
  have inside : c.register a.precision.size < a.precision.size := Nat.mod_lt _ a.precision.size_pos
  have same : (a.settle.credited inOrder).precision = a.precision := precision_settle a
  rcases update_cases sound c inOrder with ⟨_, kept⟩ | ⟨larger, raised⟩
  · rw [kept]
    exact settled_iff.mp settled
  · rw [← read _ inside] at larger
    rw [raised] at zero ⊢
    exact isPending_raise_of_zero (sound_credited sound' inOrder) settled (same ▸ inside) larger
      c.value_le_maxValue (same ▸ below) zero

end RegisterArray

theorem Coupon.exists_free {coupons : List Coupon} {size : Nat} (few : coupons.length < size) :
    ∃ slot < size, ∀ c ∈ coupons, c.register size ≠ slot := by
  by_contra full
  have taken : List.range size ⊆ coupons.map (·.register size) := by
    intro slot member
    by_contra free
    refine full ⟨slot, List.mem_range.mp member, fun c present same => free ?_⟩
    exact List.mem_map.mpr ⟨c, present, same⟩
  have length := (List.nodup_range.subperm taken).length_le
  rw [List.length_range, List.length_map] at length
  omega

namespace Store

variable {α : Type} [Scalar α] {s t : Store α} {p : Precision} {width : Width} {c : Coupon}
  {coupons others xs ys : List Coupon}

/-- A promotion leaves no upkeep behind, as a set is given up long before all registers are taken. -/
theorem isPending_promoted (few : coupons.length < p.size) (count : Nat) :
    (promoted p width coupons count : RegisterArray α).isPending = false := by
  obtain ⟨slot, inside, free⟩ := Coupon.exists_free few
  obtain ⟨_, _, _, bounds⟩ := promoted_spec (α := α) p width coupons count
  have zero : (promoted p width coupons count : RegisterArray α).get slot = 0 :=
    Nat.le_zero.mp ((bounds slot inside 0).mpr (fun c member here => absurd here (free c member)))
  rcases List.eq_nil_or_concat coupons with rfl | ⟨front, last, rfl⟩
  · rfl
  · obtain ⟨start, _⟩ := RegisterArray.sound_zeros (α := α) p width
    obtain ⟨sound, precision, _⟩ := RegisterArray.updateAll_spec start front false
    have shape : (promoted p width (front.concat last) count : RegisterArray α) =
        { (front.foldl (fun array c => array.update c false) (RegisterArray.zeros p width)).update last
          false with historic := CouponCurve.estimate count } := by
      simp [promoted]
    rw [shape] at zero ⊢
    exact RegisterArray.isPending_update_of_zero sound last false (precision ▸ inside) zero

/-- Registers do not show in which order the coupons of a set were presented to them. -/
theorem twin_promoted [Tally.ExactSums α] (perm : xs.Perm ys) (few : xs.length < p.size) (count : Nat) :
    (promoted p width xs count : RegisterArray α).Twin (promoted p width ys count) := by
  obtain ⟨_, precision, width', bounds⟩ := promoted_spec (α := α) p width xs count
  obtain ⟨_, precision', width'', bounds'⟩ := promoted_spec (α := α) p width ys count
  have settled : (promoted p width xs count : RegisterArray α).isPending = false :=
    isPending_promoted few count
  have settled' : (promoted p width ys count : RegisterArray α).isPending = false :=
    isPending_promoted (perm.length_eq ▸ few) count
  have same := precision.trans precision'.symm
  have widths := width'.trans width''.symm
  have values : (promoted p width xs count : RegisterArray α).values =
      (promoted p width ys count : RegisterArray α).values := by
    refine RegisterArray.values_congr same (fun slot inside => eq_of_forall_ge_iff (fun bound => ?_))
    rw [precision'] at inside
    rw [bounds slot inside, bounds' slot inside]
    simp only [perm.mem_iff]
  refine ⟨same, widths, values, ?_, rfl, settled.trans settled'.symm⟩
  rw [(exact_promoted p width xs count).exact (RegisterArray.settled_iff.mpr settled),
    (exact_promoted p width ys count).exact (RegisterArray.settled_iff.mpr settled'),
    RegisterArray.scan_congr widths values]

/-- The table of a set is far smaller than the registers that would take its place. -/
private theorem count_lt_size {set : CouponSet} (sound : (Store.set set width : Store α).Sound p) :
    set.count + 1 < p.size := by
  obtain ⟨inner, _, most⟩ := sound_set sound
  obtain ⟨_, _, _, precision, _⟩ := sound
  have load := inner.fits
  have small : 2 ^ set.table.lgSize ≤ 2 ^ (p.lg - 3) := Nat.pow_le_pow_right Nat.two_pos most
  have large : p.size = 2 ^ (p.lg - 3) * 2 ^ 3 := by
    rw [← Nat.pow_add, Nat.sub_add_cancel (Nat.le_trans (by decide) precision), Precision.size]
  have positive := Nat.two_pow_pos (p.lg - 3)
  rw [CouponTable.size] at load
  omega

variable [Tally.ExactSums α]

/-- The next coupon finds the same room in both tables, so both grow or give way together. -/
private theorem twin_updateSet {a b : CouponSet} (left : (Store.set a width : Store α).Sound p)
    (right : (Store.set b width : Store α).Sound p) (perm : a.coupons.Perm b.coupons)
    (taken : c ≠ Coupon.empty) (inOrder : Bool) :
    ((Store.set a width : Store α).update p c inOrder).Twin ((Store.set b width).update p c inOrder) := by
  have admits := update_admits left rfl taken inOrder
  have admits' := update_admits right rfl taken inOrder
  by_cases known : c ∈ a.coupons
  · rw [admits.known known, admits'.known (perm.subset known)]
    exact .set width perm
  · obtain ⟨all, held, mode, made⟩ := admits.fresh known
    obtain ⟨all', held', mode', made'⟩ := admits'.fresh (fun member => known (perm.symm.subset member))
    have same : all.Perm all' := held.trans ((perm.cons c).trans held'.symm)
    have counted : all.length = a.count + 1 := by
      rw [held.length_eq, List.length_cons, CouponSet.count_eq left.1]
    have full : CouponList.capacity ≤ a.count := left.2.2.1
    have few : all.length < p.size := counted ▸ count_lt_size left
    have next := admits.width
    have next' := admits'.width
    generalize (Store.set a width : Store α).update p c inOrder = s at mode made next ⊢
    generalize (Store.set b width : Store α).update p c inOrder = t at mode' made' next' ⊢
    have modes : s.mode = t.mode := by rw [mode, mode', same.length_eq]
    cases s with
    | list =>
      rw [modeFor, if_neg (Nat.not_lt_of_le (Nat.le_trans full (by omega)))] at mode
      split_ifs at mode <;> cases mode
    | set =>
      cases t with
      | list | registers => cases modes
      | set =>
        cases next
        cases next'
        cases made
        cases made'
        exact .set width same
    | registers =>
      cases t with
      | list | set => cases modes
      | registers =>
        cases made
        cases made'
        rw [← same.length_eq]
        exact .registers (twin_promoted same few _)

theorem twin_update (twin : s.Twin t) (left : s.Holds p coupons) (right : t.Holds p others)
    (valued : 1 ≤ c.value) (inOrder : Bool) : (s.update p c inOrder).Twin (t.update p c inOrder) := by
  cases twin with
  | list list width => exact .refl _
  | set width perm =>
    exact twin_updateSet left.sound right.sound perm (Coupon.ne_empty_of_valued valued) inOrder
  | registers twin =>
    exact .registers (RegisterArray.twin_update twin left.registers.1 right.registers.1 c inOrder)

end Store

namespace Sketch

section

variable {α : Type} [Scalar α] [Tally.ExactSums α] {s t : Sketch α} {c : Coupon}
  {coupons others : List Coupon}

theorem twin_addCoupon (twin : s.Twin t) (left : s.Holds coupons) (right : t.Holds others)
    (valued : 1 ≤ c.value) : (s.addCoupon c).Twin (t.addCoupon c) := by
  obtain ⟨p, seed, outOfOrder, store⟩ := s
  obtain ⟨q, seed', outOfOrder', store'⟩ := t
  obtain ⟨precision, same, order, alike⟩ := twin
  cases precision
  cases order
  exact ⟨rfl, same, rfl, Store.twin_update alike left.store right.store valued _⟩

theorem twin_addCoupons (twin : s.Twin t) (left : s.Holds coupons) (right : t.Holds others)
    (stream : List Coupon) (valued : ∀ c ∈ stream, 1 ≤ c.value) :
    (s.addCoupons stream).Twin (t.addCoupons stream) := by
  induction stream generalizing s t coupons others with
  | nil => exact twin
  | cons c rest ih =>
    have first : 1 ≤ c.value := valued c (by simp)
    exact ih (twin_addCoupon twin left right first) (holds_addCoupon left first)
      (holds_addCoupon right first) (fun d member => valued d (by simp [member]))

end

variable {s : Sketch Float}

/-- An interruption in the middle of a stream does not show at its end. -/
theorem resumed (reachable : s.Reachable) (layout : Layout) (stream : List Coupon)
    (valued : ∀ c ∈ stream, 1 ≤ c.value) :
    ∃ t, ofImage s.seed.value (s.image layout) = .ok t ∧
      (t.addCoupons stream).image .compact = (s.addCoupons stream).image .compact ∧
      (t.addCoupons stream).AnswersLike (s.addCoupons stream) := by
  obtain ⟨coupons, holds⟩ := reachable.holds
  obtain ⟨t, loaded, twin, again, _⟩ := ofImage_image holds layout
  have all := twin_addCoupons twin again holds stream valued
  have left := (holds_addCoupons again stream valued).1
  have right := (holds_addCoupons holds stream valued).1
  exact ⟨t, loaded, all.image_compact left right, all.answers left right⟩

/-- A table that gives way to registers after it was read, and registers with an exception and a pending tally
that move their base once more, go through either image amid their streams. -/
theorem resumed_table_and_exception :
    let toTable := Coupon.row 30 7
    let toRegisters := Coupon.row 16 2 ++ [.pack 3 18, .pack 0 25]
    (nineInTable.Reachable ∧ nineInTable.mode = .set ∧ ∀ c ∈ toTable, 1 ≤ c.value) ∧
    (allLeftBase.Reachable ∧
      (∃ a, allLeftBase.store = .registers a ∧ a.isPending = true ∧ a.registers.exceptionCount = 1) ∧
      ∀ c ∈ toRegisters, 1 ≤ c.value) ∧
    ∀ layout,
      (∃ t, ofImage nineInTable.seed.value (nineInTable.image layout) = .ok t ∧
        (t.addCoupons toTable).image .compact = (nineInTable.addCoupons toTable).image .compact ∧
        (t.addCoupons toTable).AnswersLike (nineInTable.addCoupons toTable)) ∧
      ∃ t, ofImage allLeftBase.seed.value (allLeftBase.image layout) = .ok t ∧
        (t.addCoupons toRegisters).image .compact = (allLeftBase.addCoupons toRegisters).image .compact ∧
        (t.addCoupons toRegisters).AnswersLike (allLeftBase.addCoupons toRegisters) := by
  intro toTable toRegisters
  obtain ⟨table, set⟩ := reachable_nineInTable
  obtain ⟨array, pending⟩ := reachable_allLeftBase
  have valued : ∀ c ∈ toTable, 1 ≤ c.value := Coupon.valued_row 30 (by decide) (by decide)
  have valued' : ∀ c ∈ toRegisters, 1 ≤ c.value := by decide
  exact ⟨⟨table, set, valued⟩, ⟨array, pending, valued'⟩, fun layout =>
    ⟨resumed table layout toTable valued, resumed array layout toRegisters valued'⟩⟩

end Sketch

end DistinctCount
