import DistinctCount.Proofs.Twins

namespace DistinctCount

/-- The registers that no coupon has hit are those that hold zero, whether or not the base moves. -/
theorem Composite.unhit_scan {α : Type} [Scalar α] (tracked : Bool) (values : List Nat) :
    unhit (Tally.scan tracked values : Tally α) = values.count 0 := by
  cases tracked with
  | false => rfl
  | true =>
    cases least : values.min? with
    | none =>
      obtain rfl := List.min?_eq_none_iff.mp least
      rfl
    | some base =>
      obtain ⟨_, below⟩ := List.min?_eq_some_iff.mp least
      have scanned : (Tally.scan true values : Tally α).base = base := by simp [Tally.scan, least]
      rw [unhit, scanned]
      split_ifs with zero
      · exact congrArg values.count (scanned.trans zero)
      · refine (List.count_eq_zero.mpr (fun member => zero ?_)).symm
        exact Nat.le_zero.mp (below 0 member)

/-- The composite estimate asks for the sum and the untouched registers, and for nothing else. -/
theorem Composite.estimate_congr {α : Type} [Analytic α] {p : Precision} {t u : Tally α}
    (sum : t.sum = u.sum) (same : unhit t = unhit u) : estimate p t = estimate p u := by
  have linear : linearEstimate p t = linearEstimate p u := by
    unfold linearEstimate
    rw [same]
  unfold estimate
  rw [sum, linear]

namespace RegisterArray

/-- Arrays of the same values and history, in registers of whatever width. -/
structure Alike {α : Type} (a b : RegisterArray α) : Prop where
  precision : a.precision = b.precision
  values : a.values = b.values
  historic : a.historic = b.historic

section

variable {α : Type} {a b c source other : RegisterArray α} {p : Precision} {slot : Nat}

theorem Alike.refl (a : RegisterArray α) : a.Alike a := ⟨rfl, rfl, rfl⟩

theorem Alike.symm (alike : a.Alike b) : b.Alike a :=
  ⟨alike.precision.symm, alike.values.symm, alike.historic.symm⟩

theorem Alike.trans (alike : a.Alike b) (alike' : b.Alike c) : a.Alike c :=
  ⟨alike.precision.trans alike'.precision, alike.values.trans alike'.values,
    alike.historic.trans alike'.historic⟩

theorem Alike.get (alike : a.Alike b) (inside : slot < b.precision.size) : a.get slot = b.get slot :=
  get_congr alike.values inside

private theorem historic_mergeSlots (a source : RegisterArray α) :
    (a.mergeSlots source).historic = a.historic := by
  unfold mergeSlots
  generalize source.values.zipIdx = pairs
  induction pairs generalizing a with
  | nil => rfl
  | cons pair rest ih =>
    obtain ⟨value, place⟩ := pair
    rw [List.foldl_cons, ih]
    simp only [lift]
    split_ifs <;> rfl

theorem historic_merge (a source : RegisterArray α) : (a.merge source).historic = a.historic := by
  unfold merge
  split
  · split_ifs
    · rfl
    · exact historic_mergeSlots a source
  · exact historic_mergeSlots a source

end

section

variable {α : Type} [Scalar α] {a b source other : RegisterArray α} {p : Precision}
  {coupons : List Coupon}

theorem historic_copyAs (a : RegisterArray α) (width : Width) :
    (a.copyAs width).historic = a.historic := by
  unfold copyAs
  split_ifs <;> rfl

/-- Only a copy at the same precision keeps its history. -/
theorem historic_folded (a : RegisterArray α) (p : Precision) (width : Width) :
    (a.folded p width).historic = if p = a.precision then a.historic else Scalar.ofNat 0 := by
  unfold folded
  split_ifs
  · exact historic_copyAs a width
  · rfl

/-- A change is credited with what the tally said before it. -/
theorem historic_update (sound : a.Sound) (c : Coupon) (inOrder : Bool) :
    (a.update c inOrder).historic =
      if inOrder = true ∧ a.get (c.register a.precision.size) < c.value then
        a.historic + Scalar.ofNat a.precision.size / a.currentTally.sum
      else a.historic := by
  obtain ⟨_, _, _, tally, _⟩ := settle_spec sound
  rcases update_cases sound c inOrder with ⟨held, same⟩ | ⟨larger, raised⟩
  · rw [same, historic_settle, if_neg (fun change => Nat.not_lt_of_le held change.2)]
  · have credited : (a.update c inOrder).historic =
        if inOrder then a.settle.historic + a.settle.credit else a.settle.historic := by
      rw [raised]
      rfl
    rw [credited, credit, tally, historic_settle, precision_settle]
    cases inOrder <;> simp [larger]

theorem alike_copyAs (sound : a.Sound) (width : Width) : (a.copyAs width).Alike a := by
  obtain ⟨_, precision, _, values⟩ := copyAs_spec sound width
  exact ⟨precision, values, historic_copyAs a width⟩

theorem alike_settle (sound : a.Sound) : a.settle.Alike a := by
  obtain ⟨_, _, _, _, read⟩ := settle_spec sound
  exact ⟨precision_settle a, values_congr (precision_settle a) read, historic_settle a⟩

theorem alike_primed (a : RegisterArray α) : a.primed.Alike a := by
  unfold primed
  split <;> exact ⟨rfl, rfl, rfl⟩

theorem Alike.sum_scan (alike : a.Alike b) : a.scan.sum = b.scan.sum := by
  simp only [scan, Tally.sum, Tally.scan, alike.values]

theorem Alike.unhit_scan (alike : a.Alike b) : Composite.unhit a.scan = Composite.unhit b.scan := by
  rw [scan, scan, Composite.unhit_scan, Composite.unhit_scan, alike.values]

theorem Alike.update (alike : a.Alike b) (left : a.Exact) (right : b.Exact) (c : Coupon)
    (inOrder : Bool) : (a.update c inOrder).Alike (b.update c inOrder) := by
  obtain ⟨_, precision, _, read⟩ := update_spec left.toSound c inOrder
  obtain ⟨_, precision', _, read'⟩ := update_spec right.toSound c inOrder
  have same := alike.precision
  have here : a.get (c.register b.precision.size) = b.get (c.register b.precision.size) :=
    alike.get (Nat.mod_lt _ b.precision.size_pos)
  refine ⟨by rw [precision, precision', same], values_congr (by rw [precision, precision', same]) ?_, ?_⟩
  · intro slot inside
    rw [precision'] at inside
    rw [read slot (same ▸ inside), read' slot inside, alike.get inside, same]
  · rw [historic_update left.toSound, historic_update right.toSound, left.currentTally,
      right.currentTally, alike.sum_scan, alike.historic, same, here]

theorem Alike.merge (alike : a.Alike b) (sources : source.Alike other) (left : a.Encoded)
    (right : b.Encoded) (source_encoded : source.Encoded) (other_encoded : other.Encoded) :
    (a.merge source).Alike (b.merge other) := by
  obtain ⟨_, precision, _, _, bounds⟩ := merge_spec left source_encoded
  obtain ⟨_, precision', _, _, bounds'⟩ := merge_spec right other_encoded
  have same : (a.merge source).precision = (b.merge other).precision := by
    rw [precision, precision', alike.precision]
  refine ⟨same, values_congr same (fun slot inside => eq_of_forall_ge_iff (fun bound => ?_)), ?_⟩
  · rw [precision'] at inside
    rw [bounds slot (alike.precision ▸ inside), bounds' slot inside, alike.get inside, alike.precision,
      sources.precision]
    refine and_congr_right fun _ => forall_congr' fun place => forall_congr' fun within => ?_
    rw [sources.get within]
  · rw [historic_merge, historic_merge, alike.historic]

theorem Alike.folded (alike : a.Alike b) (left : a.Sound) (right : b.Sound) (width width' : Width)
    (coarser : p.lg ≤ a.precision.lg) : (a.folded p width).Alike (b.folded p width') := by
  obtain ⟨_, precision, _, bounds⟩ := folded_spec left width coarser
  obtain ⟨_, precision', _, bounds'⟩ := folded_spec right width' (alike.precision ▸ coarser)
  have same : (a.folded p width).precision = (b.folded p width').precision := by
    rw [precision, precision']
  refine ⟨same, values_congr same (fun slot inside => eq_of_forall_ge_iff (fun bound => ?_)), ?_⟩
  · rw [precision'] at inside
    rw [bounds slot inside, bounds' slot inside, alike.precision]
    refine forall_congr' fun place => forall_congr' fun within => ?_
    rw [alike.get within]
  · rw [historic_folded, historic_folded, alike.precision, alike.historic]

theorem alike_zeros (p : Precision) (width width' : Width) :
    (zeros p width : RegisterArray α).Alike (zeros p width') := by
  obtain ⟨_, _, read⟩ := sound_zeros (α := α) p width
  obtain ⟨_, _, read'⟩ := sound_zeros (α := α) p width'
  exact ⟨rfl, values_congr rfl (fun slot _ => (read slot).trans (read' slot).symm), rfl⟩

variable [Tally.ExactSums α]

theorem Alike.updateAll (alike : a.Alike b) (left : a.Exact) (right : b.Exact) (coupons : List Coupon)
    (inOrder : Bool) :
    (coupons.foldl (fun a c => a.update c inOrder) a).Alike
      (coupons.foldl (fun a c => a.update c inOrder) b) := by
  induction coupons generalizing a b with
  | nil => exact alike
  | cons c rest ih =>
    exact ih (alike.update left right c inOrder) (exact_update left c inOrder)
      (exact_update right c inOrder)

end

variable {α : Type} [Analytic α] {a b : RegisterArray α}

theorem Alike.compositeEstimate (alike : a.Alike b) (left : a.Exact) (right : b.Exact) :
    a.compositeEstimate = b.compositeEstimate := by
  rw [RegisterArray.compositeEstimate, RegisterArray.compositeEstimate, left.currentTally,
    right.currentTally, alike.precision]
  exact Composite.estimate_congr alike.sum_scan alike.unhit_scan

theorem Alike.estimate (alike : a.Alike b) (left : a.Exact) (right : b.Exact) (outOfOrder : Bool) :
    a.estimate outOfOrder = b.estimate outOfOrder := by
  rw [RegisterArray.estimate, RegisterArray.estimate, alike.compositeEstimate left right,
    alike.historic]

theorem Alike.lowerBound (alike : a.Alike b) (left : a.Exact) (right : b.Exact) (outOfOrder : Bool)
    (deviation : Deviation) : a.lowerBound outOfOrder deviation = b.lowerBound outOfOrder deviation := by
  simp only [RegisterArray.lowerBound, Composite.lowerBound, Composite.hit, left.currentTally,
    right.currentTally, alike.unhit_scan, alike.precision, alike.estimate left right]

theorem Alike.upperBound (alike : a.Alike b) (left : a.Exact) (right : b.Exact) (outOfOrder : Bool)
    (deviation : Deviation) : a.upperBound outOfOrder deviation = b.upperBound outOfOrder deviation := by
  rw [RegisterArray.upperBound, RegisterArray.upperBound, alike.precision, alike.estimate left right]

end RegisterArray

namespace Store

/-- Stores that differ at most in the width of their registers or of those to come. -/
inductive Alike {α : Type} : Store α → Store α → Prop
  | list (coupons : CouponList) (width width' : Width) :
    Alike (.list coupons width) (.list coupons width')
  | set (coupons : CouponSet) (width width' : Width) : Alike (.set coupons width) (.set coupons width')
  | registers {a b : RegisterArray α} : a.Alike b → Alike (.registers a) (.registers b)

section

variable {α : Type} {s t u : Store α}

theorem Alike.refl (s : Store α) : s.Alike s := by
  cases s with
  | list coupons width => exact .list coupons width width
  | set coupons width => exact .set coupons width width
  | registers array => exact .registers (.refl array)

theorem Alike.symm (alike : s.Alike t) : t.Alike s := by
  cases alike with
  | list coupons width width' => exact .list coupons width' width
  | set coupons width width' => exact .set coupons width' width
  | registers alike => exact .registers alike.symm

theorem Alike.trans (alike : s.Alike t) (alike' : t.Alike u) : s.Alike u := by
  cases alike with
  | list => cases alike' with | list => exact .list ..
  | set => cases alike' with | set => exact .set ..
  | registers alike => cases alike' with | registers alike' => exact .registers (alike.trans alike')

end

section

variable {α : Type} [Scalar α] {s t : Store α} {p : Precision} {coupons others : List Coupon}

theorem alike_copyAs (holds : s.Holds p coupons) (width : Width) : (s.copyAs width).Alike s := by
  cases s with
  | list list old => exact .list list width old
  | set set old => exact .set set width old
  | registers array => exact .registers (RegisterArray.alike_copyAs holds.registers.1.toSound width)

theorem alike_settle (holds : s.Holds p coupons) : s.settle.Alike s := by
  cases s with
  | list | set => exact .refl _
  | registers array => exact .registers (RegisterArray.alike_settle holds.registers.1.toSound)

theorem alike_primed (s : Store α) : s.primed.Alike s := by
  cases s with
  | list | set => exact .refl _
  | registers array => exact .registers (RegisterArray.alike_primed array)

end

variable {α : Type} [Scalar α] [Tally.ExactSums α] {s t : Store α} {source other : RegisterArray α}
  {p q : Precision} {c : Coupon} {coupons others few many : List Coupon}

theorem alike_promoted (p : Precision) (width width' : Width) (coupons : List Coupon) (count : Nat) :
    (promoted p width coupons count : RegisterArray α).Alike (promoted p width' coupons count) := by
  obtain ⟨precision, values, _⟩ := (RegisterArray.alike_zeros (α := α) p width width').updateAll
    (RegisterArray.exact_zeros p width) (RegisterArray.exact_zeros p width') coupons false
  exact ⟨precision, values, rfl⟩

/-- Stores of the same coupons give way together. -/
theorem Alike.update (alike : s.Alike t) (left : s.Holds p coupons) (right : t.Holds p others)
    (c : Coupon) (inOrder : Bool) : (s.update p c inOrder).Alike (t.update p c inOrder) := by
  cases alike with
  | list list width width' =>
    simp only [Store.update, updateList]
    split_ifs
    · exact .registers (alike_promoted ..)
    · exact .set ..
    · exact .list ..
  | set set width width' =>
    simp only [Store.update, updateSet]
    split_ifs
    · exact .set ..
    · exact .registers (alike_promoted ..)
    · exact .set ..
    · exact .set ..
  | registers alike =>
    exact .registers (alike.update left.registers.1 right.registers.1 c inOrder)

theorem Alike.absorbRegisters (alike : s.Alike t) (sources : source.Alike other)
    (left : s.Holds p coupons) (right : t.Holds p others)
    (known : (Store.registers source).Holds q few) (known' : (Store.registers other).Holds q many)
    (coarser : p.lg ≤ q.lg) :
    (SketchUnion.absorbRegisters s p source).Alike (SketchUnion.absorbRegisters t p other) := by
  have exact := known.registers.1
  have exact' := known'.registers.1
  have finer : p.lg ≤ source.precision.lg := known.registers.2.1 ▸ coarser
  have finer' : p.lg ≤ other.precision.lg := known'.registers.2.1 ▸ coarser
  have folded := sources.folded exact.toSound exact'.toSound .eight .eight finer
  have presented := fun stream => folded.updateAll (RegisterArray.exact_folded exact .eight finer)
    (RegisterArray.exact_folded exact' .eight finer') stream false
  cases alike with
  | list | set => exact presented _
  | registers alike =>
    exact alike.merge sources left.registers.1.toEncoded right.registers.1.toEncoded exact.toEncoded
      exact'.toEncoded

end Store

end DistinctCount
