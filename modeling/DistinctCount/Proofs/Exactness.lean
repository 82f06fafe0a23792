import DistinctCount.Proofs.Merging

/-! Sums that nothing is lost from. The contributions of one part of a tally lie so close together that
their sum needs no rounding; a tally that is kept up change by change is then the tally of a scan. -/

namespace DistinctCount

namespace Tally

/-- Values as many and as large as registers have them. -/
structure Fits (values : List Nat) : Prop where
  few : values.length ≤ 2 ^ 21
  bounded : ∀ value ∈ values, value ≤ Coupon.maxValue

/-- Whether a value counts to a part of a tally. -/
def inPart (high : Bool) (value : Nat) : Bool := if high then divide ≤ value else value < divide

/-- Scalars that do not round the sum of values of one part. -/
class ExactSums (α : Type) [Scalar α] : Prop where
  perm : ∀ {high : Bool} {values others : List Nat}, Fits values → (∀ v ∈ values, inPart high v) →
    values.Perm others → (sumOf values : α) = sumOf others
  sub : ∀ {high : Bool} {value : Nat} {values : List Nat}, Fits (value :: values) →
    (∀ v ∈ value :: values, inPart high v) →
    (sumOf (value :: values) : α) - Scalar.halfPow value = sumOf values
  zeros : ∀ {count : Nat}, count ≤ 2 ^ 21 →
    (sumOf (List.replicate count 0) : α) = Scalar.ofNat count

section

variable {α : Type} {t u : Tally α} {values others rest : List Nat} {old new : Nat} {high : Bool}

theorem Fits.of_perm (fits : Fits values) (perm : values.Perm others) : Fits others :=
  ⟨perm.length_eq ▸ fits.few, fun value member => fits.bounded value (perm.symm.subset member)⟩

theorem Fits.sublist (fits : Fits values) (fewer : others.Sublist values) : Fits others :=
  ⟨Nat.le_trans fewer.length_le fits.few, fun value member => fits.bounded value (fewer.subset member)⟩

theorem Fits.filter (fits : Fits values) (keeps : Nat → Bool) : Fits (values.filter keeps) :=
  fits.sublist List.filter_sublist

theorem Fits.tail (fits : Fits (old :: rest)) : Fits rest :=
  fits.sublist (List.sublist_cons_self old rest)

theorem Fits.exchange (fits : Fits (old :: rest)) (limit : new ≤ Coupon.maxValue) :
    Fits (new :: rest) :=
  ⟨fits.few, List.forall_mem_cons.mpr ⟨limit, (List.forall_mem_cons.mp fits.bounded).2⟩⟩

/-- The sum of one part of a tally. -/
def part (t : Tally α) (high : Bool) : α := if high then t.high else t.low

theorem ext_parts (base : t.base = u.base) (atBase : t.atBase = u.atBase)
    (parts : ∀ high, t.part high = u.part high) : t = u := by
  have low : t.low = u.low := parts false
  have high : t.high = u.high := parts true
  cases t
  cases u
  simp_all

end

variable {α : Type} [Scalar α] {t : Tally α} {values others rest : List Nat} {old new : Nat}
  {high : Bool}

theorem part_remove : (t.remove old).part high =
    if inPart high old then t.part high - Scalar.halfPow old else t.part high := by
  cases high <;> by_cases low : old < divide <;>
    simp [remove, part, inPart, low, Nat.not_le_of_lt, Nat.le_of_not_lt]

theorem part_add : (t.add new).part high =
    if inPart high new then t.part high + Scalar.halfPow new else t.part high := by
  cases high <;> by_cases low : new < divide <;>
    simp [add, part, inPart, low, Nat.not_le_of_lt, Nat.le_of_not_lt]

theorem part_scan (tracked high : Bool) (values : List Nat) :
    (scan tracked values : Tally α).part high = sumOf (values.filter (inPart high)) := by
  cases high <;> rfl

variable [ExactSums α]

theorem sumOf_filter_perm (fits : Fits values) (perm : values.Perm others) (high : Bool) :
    (sumOf (values.filter (inPart high)) : α) = sumOf (others.filter (inPart high)) :=
  ExactSums.perm (fits.filter _) (fun _ member => (List.mem_filter.mp member).2) (perm.filter _)

theorem part_remove_eq (fits : Fits (old :: rest))
    (known : t.part high = sumOf ((old :: rest).filter (inPart high))) :
    (t.remove old).part high = sumOf (rest.filter (inPart high)) := by
  rw [part_remove, known, List.filter_cons]
  split_ifs with counts
  · have shape : (old :: rest).filter (inPart high) = old :: rest.filter (inPart high) :=
      List.filter_cons_of_pos counts
    have counts' : ∀ v ∈ old :: rest.filter (inPart high), inPart high v := by
      rw [← shape]
      exact fun _ member => (List.mem_filter.mp member).2
    exact ExactSums.sub (shape ▸ fits.filter _) counts'
  · rfl

theorem part_add_eq (fits : Fits (new :: rest)) (known : t.part high = sumOf (rest.filter (inPart high))) :
    (t.add new).part high = sumOf ((new :: rest).filter (inPart high)) := by
  have last : (new :: rest).Perm (rest ++ [new]) := (List.perm_append_singleton new rest).symm
  rw [part_add, known, sumOf_filter_perm fits last, List.filter_append, List.filter_singleton]
  cases counts : inPart high new
  · simp
  · simp [sumOf_concat]

/-- Exchanging one value for another moves its contribution. -/
theorem part_replace (fits : Fits (old :: rest)) (limit : new ≤ Coupon.maxValue)
    (perm : values.Perm (old :: rest)) (perm' : others.Perm (new :: rest))
    (known : t.part high = sumOf (values.filter (inPart high))) :
    (t.replace old new).part high = sumOf (others.filter (inPart high)) := by
  have exchanged := fits.exchange limit
  rw [sumOf_filter_perm (fits.of_perm perm.symm) perm] at known
  rw [sumOf_filter_perm (exchanged.of_perm perm'.symm) perm']
  exact part_add_eq exchanged (part_remove_eq fits known)

theorem part_zeros {size : Nat} (few : size ≤ 2 ^ 21) (high : Bool) :
    (zeros size : Tally α).part high = sumOf ((List.replicate size 0).filter (inPart high)) := by
  cases high
  · have kept : (List.replicate size 0).filter (inPart false) = List.replicate size 0 := by
      simp [inPart, divide]
    exact (ExactSums.zeros few).symm.trans (congrArg _ kept.symm)
  · have none : (List.replicate size 0).filter (inPart true) = [] := by
      simp [inPart, divide]
    exact (congrArg sumOf none).symm

end Tally

namespace RegisterArray

theorem fits_values {α : Type} {a : RegisterArray α} (encoded : a.Encoded) : Tally.Fits a.values := by
  refine ⟨?_, fun value member => ?_⟩
  · rw [length_values]
    exact Nat.pow_le_pow_right Nat.two_pos a.precision.le_twentyOne
  · obtain ⟨slot, inside, rfl⟩ := mem_values.mp member
    exact encoded.get_le inside

section

variable {α : Type} [Scalar α] {a source : RegisterArray α} {p : Precision} {width : Width}

/-- An array whose tally, unless it is pending, is exactly that of a scan. -/
structure Exact (a : RegisterArray α) : Prop extends Sound a where
  exact : a.upkeep = .settled → a.tally = a.scan

theorem Exact.currentTally (exact : a.Exact) : a.currentTally = a.scan := by
  by_cases settled : a.upkeep = .settled
  · rw [RegisterArray.currentTally, settled]
    exact exact.exact settled
  · exact currentTally_eq_scan exact.toSound settled

theorem exact_of_pending (sound : a.Sound) (pending : a.upkeep = .pending none) : a.Exact :=
  ⟨sound, fun settled => by rw [pending] at settled; cases settled⟩

theorem exact_ofValues {values : List Nat} (historic : α) (sized : values.length = p.size)
    (bounded : ∀ value ∈ values, value ≤ Coupon.maxValue) :
    (ofValues p width values historic).Exact := by
  obtain ⟨sound, same, shown⟩ := ofValues_spec width historic sized bounded
  refine ⟨sound, fun _ => ?_⟩
  rw [scan, shown, same]
  rfl

theorem exact_settle (exact : a.Exact) : a.settle.Exact := by
  obtain ⟨sound, _, width, tally, read⟩ := settle_spec exact.toSound
  refine ⟨sound, fun _ => ?_⟩
  have values : a.settle.values = a.values := values_congr (precision_settle a) read
  rw [tally, exact.currentTally, scan_congr width values]

theorem exact_credited (exact : a.Exact) (inOrder : Bool) : (a.credited inOrder).Exact :=
  ⟨sound_credited exact.toSound inOrder, exact.exact⟩

theorem exact_primed (exact : a.Exact) : a.primed.Exact := by
  unfold primed
  split
  · refine ⟨⟨⟨exact.registers, exact.atBase_le⟩, ?_, ?_⟩, ?_⟩
    · intro settled
      cases settled
    · intro kept pending
      cases pending
      rfl
    · intro settled
      cases settled
  · exact exact

theorem exact_merge (encoded : a.Encoded) (other : source.Encoded) : (a.merge source).Exact := by
  obtain ⟨sound, _, _, pending, _⟩ := merge_spec encoded other
  exact exact_of_pending sound pending

theorem exact_copyAs (exact : a.Exact) (width : Width) : (a.copyAs width).Exact := by
  unfold copyAs
  split_ifs
  · exact exact
  · exact exact_ofValues a.historic a.length_values (fits_values exact.toEncoded).bounded

theorem exact_folded (exact : a.Exact) (width : Width) (coarser : p.lg ≤ a.precision.lg) :
    (a.folded p width).Exact := by
  unfold folded
  split_ifs
  · exact exact_copyAs exact width
  · exact exact_ofValues _ (length_foldedValues a p) (foldedValues_le exact.toEncoded coarser)

end

variable {α : Type} [Scalar α] [Tally.ExactSums α] {a source : RegisterArray α} {p : Precision}
  {width : Width} {slot old new : Nat}

theorem exact_zeros (p : Precision) (width : Width) : (zeros p width : RegisterArray α).Exact := by
  obtain ⟨sound, same, read⟩ := sound_zeros (α := α) p width
  refine ⟨sound, fun settled => ?_⟩
  obtain ⟨base, atBase⟩ := sound.settled settled
  apply Tally.ext_parts base atBase
  intro high
  have all : (zeros p width : RegisterArray α).values = List.replicate p.size 0 :=
    values_replicate (fun slot _ => read slot)
  rw [scan, Tally.part_scan, all]
  exact Tally.part_zeros p.size_le high

private theorem part_raise (exact : a.Exact) (settled : a.upkeep = .settled)
    (inside : slot < a.precision.size) (larger : a.get slot < new) (bound : new ≤ Coupon.maxValue)
    (high : Bool) :
    (a.raise slot (a.get slot) new).tally.part high = (a.raise slot (a.get slot) new).scan.part high := by
  obtain ⟨_, _, read⟩ := raise_spec exact.toSound settled inside larger bound
  have place : slot < a.values.length := by simpa using inside
  have values : (a.raise slot (a.get slot) new).values = a.values.set slot new := values_set rfl read
  have before : a.values.Perm (a.get slot :: a.values.eraseIdx slot) := by
    rw [← getElem_values a place]
    exact (List.getElem_cons_eraseIdx_perm place).symm
  have known : a.tally.part high = Tally.sumOf (a.values.filter (Tally.inPart high)) := by
    rw [exact.exact settled, scan, Tally.part_scan]
  rw [scan, Tally.part_scan, values]
  exact Tally.part_replace ((fits_values exact.toEncoded).of_perm before) bound before
    (List.set_perm_cons_eraseIdx place new) known

private theorem exact_raise (exact : a.Exact) (settled : a.upkeep = .settled)
    (inside : slot < a.precision.size) (larger : a.get slot < new) (bound : new ≤ Coupon.maxValue) :
    (a.raise slot (a.get slot) new).Exact := by
  obtain ⟨sound, _, _⟩ := raise_spec exact.toSound settled inside larger bound
  refine ⟨sound, fun settled' => ?_⟩
  obtain ⟨base, atBase⟩ := sound.settled settled'
  exact Tally.ext_parts base atBase (part_raise exact settled inside larger bound)

/-- Each update leaves the sums of a scan, whether or not the tally is pending then. -/
theorem part_update (exact : a.Exact) (c : Coupon) (inOrder high : Bool) :
    (a.update c inOrder).tally.part high = (a.update c inOrder).scan.part high := by
  have settled := exact_settle exact
  obtain ⟨_, upkeep, _, _, read⟩ := settle_spec exact.toSound
  have inside : c.register a.precision.size < a.precision.size := Nat.mod_lt _ a.precision.size_pos
  rcases update_cases exact.toSound c inOrder with ⟨_, same⟩ | ⟨larger, raised⟩
  · rw [same, settled.exact upkeep]
  · rw [raised]
    refine part_raise (exact_credited settled inOrder) upkeep ?_
      (by rw [← read _ inside] at larger; exact larger) c.value_le_maxValue high
    simpa [credited] using inside

/-- An update moves the contribution of one register, and with it the tally of a scan. -/
theorem exact_update (exact : a.Exact) (c : Coupon) (inOrder : Bool) : (a.update c inOrder).Exact := by
  obtain ⟨_, settled, _, _, read⟩ := settle_spec exact.toSound
  have inside : c.register a.precision.size < a.precision.size := Nat.mod_lt _ a.precision.size_pos
  rcases update_cases exact.toSound c inOrder with ⟨_, same⟩ | ⟨larger, raised⟩
  · rw [same]
    exact exact_settle exact
  · rw [raised]
    refine exact_raise (exact_credited (exact_settle exact) inOrder) settled ?_
      (by rw [← read _ inside] at larger; exact larger) c.value_le_maxValue
    simpa [credited] using inside

theorem exact_updateAll (exact : a.Exact) (coupons : List Coupon) (inOrder : Bool) :
    (coupons.foldl (fun a c => a.update c inOrder) a).Exact := by
  induction coupons generalizing a with
  | nil => exact exact
  | cons c rest ih => exact ih (exact_update exact c inOrder)

end RegisterArray

end DistinctCount
