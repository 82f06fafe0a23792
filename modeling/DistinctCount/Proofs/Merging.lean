import DistinctCount.Proofs.Upkeep

/-! Bulk changes of register arrays. Each of them is described by the bounds of the values that it
leaves: a merged or folded register stays below a bound exactly if all that went into it do. -/

namespace DistinctCount

theorem Precision.size_dvd {p q : Precision} (coarser : p.lg ≤ q.lg) : p.size ∣ q.size :=
  Nat.pow_dvd_pow 2 coarser

theorem Precision.ext_lg {p q : Precision} (same : p.lg = q.lg) : p = q := by
  cases p
  cases q
  cases same
  rfl

theorem foldl_max_le_iff {β : Type} (read : β → Nat) (list : List β) (start bound : Nat) :
    list.foldl (fun largest x => max largest (read x)) start ≤ bound ↔
      start ≤ bound ∧ ∀ x ∈ list, read x ≤ bound := by
  induction list generalizing start with
  | nil => simp
  | cons x rest ih => rw [List.foldl_cons, ih, Nat.max_le, List.forall_mem_cons, and_assoc]

namespace RegisterArray

variable {α : Type} {a source : RegisterArray α} {p : Precision} {width : Width} {slot value : Nat}

/-- Lifting changes nothing but one register, and that only upwards. -/
theorem lift_spec (encoded : a.Encoded) (inside : slot < a.precision.size)
    (bounded : value ≤ Coupon.maxValue) :
    (a.lift slot value).Encoded ∧ (a.lift slot value).precision = a.precision ∧
      (a.lift slot value).width = a.width ∧
      ∀ other < a.precision.size, (a.lift slot value).get other =
        if other = slot then max (a.get slot) value else a.get other := by
  unfold lift
  split_ifs with larger
  · obtain ⟨registers, width, read⟩ :=
      Registers.put_spec encoded.registers inside (Nat.le_of_lt larger) bounded
    refine ⟨⟨registers, encoded.atBase_le⟩, rfl, width, fun other below => ?_⟩
    rw [Nat.max_eq_right (Nat.le_of_lt larger)]
    exact read other below
  · refine ⟨encoded, rfl, rfl, fun other _ => ?_⟩
    split_ifs with here
    · rw [here, Nat.max_eq_left (Nat.le_of_not_lt larger)]
    · rfl

private theorem liftAll_spec (pairs : List (Nat × Nat)) (encoded : a.Encoded)
    (bounded : ∀ pair ∈ pairs, pair.1 ≤ Coupon.maxValue) :
    let lifted := pairs.foldl (fun a (value, slot) => a.lift (slot % a.precision.size) value) a
    lifted.Encoded ∧ lifted.precision = a.precision ∧ lifted.width = a.width ∧
      ∀ slot < a.precision.size, ∀ bound, lifted.get slot ≤ bound ↔
        a.get slot ≤ bound ∧ ∀ pair ∈ pairs, pair.2 % a.precision.size = slot → pair.1 ≤ bound := by
  induction pairs generalizing a with
  | nil => exact ⟨encoded, rfl, rfl, fun slot _ bound => by simp⟩
  | cons pair rest ih =>
    have inside : pair.2 % a.precision.size < a.precision.size := Nat.mod_lt _ a.precision.size_pos
    obtain ⟨encoded', precision, width, read⟩ := lift_spec encoded inside (bounded pair (by simp))
    obtain ⟨encoded'', precision', width', bounds⟩ :=
      ih encoded' (fun other member => bounded other (by simp [member]))
    refine ⟨encoded'', precision'.trans precision, width'.trans width, fun slot below bound => ?_⟩
    have here := bounds slot (by rwa [precision]) bound
    simp only [List.foldl_cons, List.forall_mem_cons]
    rw [here, read slot below, precision]
    split_ifs with same
    · rw [same, Nat.max_le]
      simp only [true_imp_iff, and_assoc]
    · simp only [Ne.symm same, false_imp_iff, true_and]

/-- Slot by slot, each register is lifted to all values of the source whose slots end in its bits. -/
theorem mergeSlots_spec (encoded : a.Encoded) (other : source.Encoded) :
    (a.mergeSlots source).Encoded ∧ (a.mergeSlots source).precision = a.precision ∧
      (a.mergeSlots source).width = a.width ∧
      ∀ slot < a.precision.size, ∀ bound, (a.mergeSlots source).get slot ≤ bound ↔
        a.get slot ≤ bound ∧ ∀ place < source.precision.size, place % a.precision.size = slot →
          source.get place ≤ bound := by
  have placed {value place : Nat} : (value, place) ∈ source.values.zipIdx ↔
      place < source.precision.size ∧ source.get place = value := by
    rw [List.mk_mem_zipIdx_iff_getElem?, List.getElem?_eq_some_iff]
    simp [getElem_values]
  obtain ⟨encoded', precision, width, bounds⟩ :=
    liftAll_spec source.values.zipIdx encoded (by
      rintro ⟨value, place⟩ member
      obtain ⟨inside, rfl⟩ := placed.mp member
      exact other.get_le inside)
  refine ⟨encoded', precision, width, fun slot inside bound => ?_⟩
  refine (bounds slot inside bound).trans (and_congr_right fun _ => ?_)
  simp only [Prod.forall, placed]
  constructor
  · exact fun all place within same => all _ place ⟨within, rfl⟩ same
  · rintro all _ place ⟨within, rfl⟩ same
    exact all place within same

/-- The slots of a finer array that end in the bits of a slot lie a coarser size apart. -/
private theorem forall_block_iff {q : Precision} (coarser : p.lg ≤ q.lg) (inside : slot < p.size)
    (holds : Nat → Prop) :
    (∀ block ∈ List.range (q.size / p.size), holds (slot + block * p.size)) ↔
      ∀ place < q.size, place % p.size = slot → holds place := by
  obtain ⟨blocks, size⟩ := Precision.size_dvd coarser
  have count : q.size / p.size = blocks := by
    rw [size, Nat.mul_div_cancel_left _ p.size_pos]
  rw [count]
  constructor
  · intro all place within same
    have split : place = slot + place / p.size * p.size := by
      rw [← same, Nat.mul_comm]
      exact (Nat.mod_add_div place p.size).symm
    rw [split]
    refine all _ (List.mem_range.mpr (Nat.div_lt_of_lt_mul ?_))
    rwa [← size]
  · intro all block member
    have below := List.mem_range.mp member
    refine all _ ?_ ?_
    · have fits : (block + 1) * p.size ≤ blocks * p.size := Nat.mul_le_mul_right _ below
      rw [Nat.add_mul] at fits
      rw [size, Nat.mul_comm p.size]
      omega
    · rw [Nat.add_mul_mod_self_right, Nat.mod_eq_of_lt inside]

/-- A folded value is the maximum of those that share its bits, and so below the same bounds. -/
theorem getElem?_foldedValues (coarser : p.lg ≤ a.precision.lg) (inside : slot < p.size) :
    ∃ largest, (a.foldedValues p)[slot]? = some largest ∧ ∀ bound, largest ≤ bound ↔
      ∀ place < a.precision.size, place % p.size = slot → a.get place ≤ bound := by
  refine ⟨_, by rw [foldedValues, List.getElem?_map, List.getElem?_range inside]; rfl,
    fun bound => ?_⟩
  rw [foldl_max_le_iff, ← forall_block_iff coarser inside (fun place => a.get place ≤ bound)]
  simp

theorem length_foldedValues (a : RegisterArray α) (p : Precision) :
    (a.foldedValues p).length = p.size := by
  simp [foldedValues]

theorem foldedValues_le (encoded : a.Encoded) (coarser : p.lg ≤ a.precision.lg) :
    ∀ value ∈ a.foldedValues p, value ≤ Coupon.maxValue := by
  intro value member
  obtain ⟨slot, found⟩ := List.mem_iff_getElem?.mp member
  obtain ⟨inside, _⟩ := List.getElem?_eq_some_iff.mp found
  obtain ⟨largest, here, bounds⟩ :=
    getElem?_foldedValues coarser (length_foldedValues a p ▸ inside)
  rw [found] at here
  rw [Option.some.inj here, bounds]
  exact fun place within _ => encoded.get_le within

variable [Scalar α]

/-- A stream of coupons leaves in each register the maximum of what was there and what came. -/
theorem updateAll_spec (sound : a.Sound) (coupons : List Coupon) (inOrder : Bool) :
    let updated := coupons.foldl (fun a c => a.update c inOrder) a
    updated.Sound ∧ updated.precision = a.precision ∧ updated.width = a.width ∧
      ∀ slot < a.precision.size, ∀ bound, updated.get slot ≤ bound ↔
        a.get slot ≤ bound ∧ ∀ c ∈ coupons, c.register a.precision.size = slot → c.value ≤ bound := by
  induction coupons generalizing a with
  | nil => exact ⟨sound, rfl, rfl, fun slot _ bound => by simp⟩
  | cons c rest ih =>
    obtain ⟨sound', precision, width, read⟩ := update_spec sound c inOrder
    obtain ⟨sound'', precision', width', bounds⟩ := ih sound'
    refine ⟨sound'', precision'.trans precision, width'.trans width, fun slot below bound => ?_⟩
    have here := bounds slot (by rwa [precision]) bound
    simp only [List.foldl_cons, List.forall_mem_cons]
    rw [here, read slot below, precision]
    split_ifs with same
    · rw [same, Nat.max_le]
      simp only [true_imp_iff, and_assoc]
    · simp only [Ne.symm same, false_imp_iff, true_and]

/-- Both ways of merging leave the maximum of a register and of all those that share its bits. -/
theorem merge_spec (encoded : a.Encoded) (other : source.Encoded) :
    (a.merge source).Sound ∧ (a.merge source).precision = a.precision ∧
      (a.merge source).width = a.width ∧ (a.merge source).upkeep = .pending none ∧
      ∀ slot < a.precision.size, ∀ bound, (a.merge source).get slot ≤ bound ↔
        a.get slot ≤ bound ∧ ∀ place < source.precision.size, place % a.precision.size = slot →
          source.get place ≤ bound := by
  suffices merged : ∃ merged : RegisterArray α,
      a.merge source = { merged with upkeep := .pending none } ∧ merged.Encoded ∧
      merged.precision = a.precision ∧ merged.width = a.width ∧
      ∀ slot < a.precision.size, ∀ bound, merged.get slot ≤ bound ↔
        a.get slot ≤ bound ∧ ∀ place < source.precision.size, place % a.precision.size = slot →
          source.get place ≤ bound by
    obtain ⟨merged, shape, encoded', precision, width, bounds⟩ := merged
    rw [shape]
    refine ⟨⟨⟨encoded'.registers, encoded'.atBase_le⟩, ?_, ?_⟩, precision, width, rfl, bounds⟩
    · intro settled
      cases settled
    · intro kept pending
      cases pending
  unfold merge
  split
  · rename_i cells others eight eight'
    split_ifs with precision
    · refine ⟨_, rfl, ?_⟩
      obtain ⟨size, base⟩ : cells.bytes.size = a.precision.size ∧ a.tally.base = 0 := by
        have packed := encoded.registers.packed
        rwa [eight] at packed
      obtain ⟨size', _⟩ : others.bytes.size = source.precision.size ∧ source.tally.base = 0 := by
        have packed := other.registers.packed
        rwa [eight'] at packed
      have equal : cells.bytes.size = others.bytes.size := by rw [size, size', precision]
      have read (slot : Nat) : (cells.maxima others).get slot = max (a.get slot) (source.get slot) := by
        rw [Octets.get_maxima _ _ equal, get, eight, get, eight']
        rfl
      have bounded : ∀ slot < a.precision.size, (cells.maxima others).get slot ≤ Coupon.maxValue := by
        intro slot inside
        rw [read]
        exact Nat.max_le.mpr ⟨encoded.get_le inside, other.get_le (precision ▸ inside)⟩
      refine ⟨⟨⟨⟨?_, base⟩, bounded⟩, encoded.atBase_le⟩, rfl, ?_, fun slot inside bound => ?_⟩
      · rw [Octets.size_maxima _ _ equal, size]
      · simp [RegisterArray.width, Registers.width, eight]
      · refine (iff_of_eq (congrArg (· ≤ bound) (read slot))).trans ?_
        rw [Nat.max_le]
        refine and_congr_right fun _ => ?_
        constructor
        · intro below place within same
          rw [precision, Nat.mod_eq_of_lt within] at same
          rwa [same]
        · exact fun all => all slot (precision ▸ inside) (Nat.mod_eq_of_lt inside)
    · exact ⟨_, rfl, mergeSlots_spec encoded other⟩
  · exact ⟨_, rfl, mergeSlots_spec encoded other⟩

/-- A copy in other registers has the same values, and the same tally for those who read it. -/
theorem copyAs_spec (sound : a.Sound) (width : Width) :
    (a.copyAs width).Sound ∧ (a.copyAs width).precision = a.precision ∧
      (a.copyAs width).width = width ∧ (a.copyAs width).values = a.values := by
  unfold copyAs
  split_ifs with same
  · exact ⟨sound, rfl, same.1.symm, rfl⟩
  · have bounded : ∀ value ∈ a.values, value ≤ Coupon.maxValue := by
      intro value member
      obtain ⟨slot, inside, rfl⟩ := mem_values.mp member
      exact sound.get_le inside
    obtain ⟨sound', width', values⟩ :=
      ofValues_spec width a.historic a.length_values bounded
    exact ⟨sound', rfl, width', values⟩

/-- Folding leaves in each register the maximum of those that share its bits. -/
theorem folded_spec (sound : a.Sound) (width : Width) (coarser : p.lg ≤ a.precision.lg) :
    (a.folded p width).Sound ∧ (a.folded p width).precision = p ∧ (a.folded p width).width = width ∧
      ∀ slot < p.size, ∀ bound, (a.folded p width).get slot ≤ bound ↔
        ∀ place < a.precision.size, place % p.size = slot → a.get place ≤ bound := by
  unfold folded
  split_ifs with same
  · subst same
    obtain ⟨sound', precision, width', values⟩ := copyAs_spec sound width
    refine ⟨sound', precision, width', fun slot inside bound => ?_⟩
    rw [get_congr values inside]
    constructor
    · intro below place within here
      rw [Nat.mod_eq_of_lt within] at here
      rwa [here]
    · exact fun all => all slot inside (Nat.mod_eq_of_lt inside)
  · obtain ⟨sound', width', values⟩ := ofValues_spec width (Scalar.ofNat 0 : α)
      (length_foldedValues a p) (foldedValues_le sound.toEncoded coarser)
    refine ⟨sound', rfl, width', fun slot inside bound => ?_⟩
    obtain ⟨largest, found, bounds⟩ := getElem?_foldedValues coarser inside
    rw [← values, getElem?_values inside] at found
    rw [Option.some.inj found, bounds]

end RegisterArray

end DistinctCount
