import DistinctCount.RegisterArray
import DistinctCount.Proofs.Encoding

/-! A register array shows one value for each slot, whatever its width and whether or not its tally is
pending. The upkeep that is put off changes no value. -/

namespace DistinctCount

@[simp] theorem Tally.base_replace {α : Type} [Scalar α] (t : Tally α) (old new : Nat) :
    (t.replace old new).base = t.base := by
  unfold Tally.replace Tally.remove Tally.add
  split_ifs <;> rfl

@[simp] theorem Tally.atBase_replace {α : Type} [Scalar α] (t : Tally α) (old new : Nat) :
    (t.replace old new).atBase = t.atBase := by
  unfold Tally.replace Tally.remove Tally.add
  split_ifs <;> rfl

namespace RegisterArray

section

variable {α : Type} {a b : RegisterArray α} {slot value : Nat}

/-- Registers that can be read and raised. -/
structure Encoded (a : RegisterArray α) : Prop where
  registers : a.registers.Sound a.precision a.tally.base
  atBase_le : a.tally.atBase ≤ a.precision.size

theorem Encoded.base_le_get (encoded : a.Encoded) (slot : Nat) : a.tally.base ≤ a.get slot :=
  encoded.registers.base_le_get slot

theorem Encoded.get_le (encoded : a.Encoded) (inside : slot < a.precision.size) :
    a.get slot ≤ Coupon.maxValue := encoded.registers.bounded slot inside

theorem Encoded.base_le (encoded : a.Encoded) : a.tally.base ≤ Coupon.maxValue :=
  Nat.le_trans (encoded.base_le_get 0) (encoded.get_le a.precision.size_pos)

theorem Encoded.base_eq_zero (encoded : a.Encoded) (width : a.width ≠ .four) : a.tally.base = 0 := by
  have packed := encoded.registers.packed
  unfold RegisterArray.width Registers.width at width
  unfold Registers.Packed at packed
  split at packed
  · rename_i four
    simp [four] at width
  · exact packed.2.2
  · exact packed.2

@[simp] theorem length_values (a : RegisterArray α) : a.values.length = a.precision.size := by
  simp [values]

theorem getElem_values (a : RegisterArray α) (inside : slot < a.values.length) :
    a.values[slot] = a.get slot := by
  simp [values]

theorem getElem?_values (inside : slot < a.precision.size) : a.values[slot]? = some (a.get slot) := by
  rw [List.getElem?_eq_getElem (by simpa using inside), getElem_values]

theorem mem_values : value ∈ a.values ↔ ∃ slot < a.precision.size, a.get slot = value := by
  simp [values]

theorem values_congr (precision : a.precision = b.precision)
    (same : ∀ slot < b.precision.size, a.get slot = b.get slot) : a.values = b.values := by
  rw [values, values, precision]
  exact List.map_congr_left (fun slot inside => same slot (List.mem_range.mp inside))

theorem get_congr (same : a.values = b.values) (inside : slot < b.precision.size) :
    a.get slot = b.get slot := by
  have size : a.precision.size = b.precision.size := by
    rw [← length_values a, same, length_values]
  have here := congrArg (·[slot]?) same
  simp only [getElem?_values inside, getElem?_values (a := a) (size ▸ inside)] at here
  exact Option.some.inj here

theorem values_set (precision : b.precision = a.precision)
    (raised : ∀ other < a.precision.size, b.get other = if other = slot then value else a.get other) :
    b.values = a.values.set slot value := by
  apply List.ext_getElem (by simp [precision])
  intro other inside _
  rw [length_values, precision] at inside
  rw [getElem_values, raised other inside, List.getElem_set, getElem_values]
  simp only [eq_comm]

theorem values_replicate (all : ∀ slot < a.precision.size, a.get slot = value) :
    a.values = List.replicate a.precision.size value := by
  refine List.eq_replicate_iff.mpr ⟨length_values a, fun other member => ?_⟩
  obtain ⟨slot, inside, rfl⟩ := mem_values.mp member
  exact all slot inside

theorem values_ne_nil (a : RegisterArray α) : a.values ≠ [] := by
  intro none
  have := a.precision.size_pos
  rw [← length_values a, none] at this
  simp at this

theorem settled_iff : a.upkeep = .settled ↔ a.isPending = false := by
  unfold isPending
  split <;> simp [*]

theorem tracksBase_iff (width : Width) : tracksBase width = true ↔ width = .four := by
  simp [tracksBase]

end

variable {α : Type} [Scalar α] {a b source : RegisterArray α} {p : Precision} {width : Width}
  {slot old new value : Nat} {c : Coupon}

/-- A settled tally counts the base as a scan does, and a scan that is kept is one of the registers. -/
structure Sound (a : RegisterArray α) : Prop extends Encoded a where
  settled : a.upkeep = .settled → a.tally.base = a.scan.base ∧ a.tally.atBase = a.scan.atBase
  scanned : ∀ kept, a.upkeep = .pending (some kept) → kept = a.scan

theorem scan_congr (width : a.width = b.width) (same : a.values = b.values) : a.scan = b.scan := by
  rw [scan, scan, same, width]

/-- The base of a scan is the least value, or zero if the base does not move. -/
theorem scan_base_spec (a : RegisterArray α) :
    (∀ slot < a.precision.size, a.scan.base ≤ a.get slot) ∧
      (a.width = .four → ∃ slot < a.precision.size, a.get slot = a.scan.base) ∧
      (a.width ≠ .four → a.scan.base = 0) := by
  by_cases tracked : a.width = .four
  · obtain ⟨least, found⟩ := Option.isSome_iff_exists.mp
      (List.isSome_min?_of_ne_nil a.values_ne_nil)
    obtain ⟨member, below⟩ := List.min?_eq_some_iff.mp found
    have base : a.scan.base = least := by
      simp [scan, Tally.scan, (tracksBase_iff a.width).mpr tracked, found]
    rw [base]
    exact ⟨fun slot inside => below _ (mem_values.mpr ⟨slot, inside, rfl⟩),
      fun _ => mem_values.mp member, fun other => absurd tracked other⟩
  · have base : a.scan.base = 0 := by simp [scan, Tally.scan, tracksBase, tracked]
    rw [base]
    exact ⟨fun _ _ => Nat.zero_le _, fun four => absurd four tracked, fun _ => rfl⟩

theorem scan_atBase (a : RegisterArray α) : a.scan.atBase = a.values.count a.scan.base := rfl

theorem scan_base_eq {base : Nat} (below : ∀ slot < a.precision.size, base ≤ a.get slot)
    (reached : a.width = .four → ∃ slot < a.precision.size, a.get slot = base)
    (relative : a.width ≠ .four → base = 0) : a.scan.base = base := by
  obtain ⟨least, attained, zero⟩ := a.scan_base_spec
  by_cases tracked : a.width = .four
  · obtain ⟨slot, inside, same⟩ := reached tracked
    obtain ⟨other, bound, equal⟩ := attained tracked
    have := least slot inside
    have := below other bound
    omega
  · rw [zero tracked, relative tracked]

theorem scan_base_le (encoded : a.Encoded) : a.scan.base ≤ Coupon.maxValue :=
  Nat.le_trans (a.scan_base_spec.1 0 a.precision.size_pos) (encoded.get_le a.precision.size_pos)

theorem scan_atBase_le (a : RegisterArray α) : a.scan.atBase ≤ a.precision.size := by
  rw [scan_atBase, ← length_values a]
  exact List.count_le_length

theorem sound_zeros (p : Precision) (width : Width) :
    (zeros p width : RegisterArray α).Sound ∧
      (zeros p width : RegisterArray α).width = width ∧
      ∀ slot, (zeros p width : RegisterArray α).get slot = 0 := by
  obtain ⟨registers, same, read⟩ :=
    Registers.zeros_spec p width 0 (Nat.zero_le _) (fun _ => rfl)
  have base : (zeros p width : RegisterArray α).scan.base = 0 :=
    scan_base_eq (fun _ _ => Nat.zero_le _) (fun _ => ⟨0, p.size_pos, read 0⟩) (fun _ => rfl)
  refine ⟨⟨⟨registers, Nat.le_refl _⟩, fun _ => ⟨base.symm, ?_⟩, by simp [zeros]⟩, same, read⟩
  have all : (zeros p width : RegisterArray α).values = List.replicate p.size 0 :=
    values_replicate (fun slot _ => read slot)
  rw [scan_atBase, base, all, List.count_replicate_self]
  rfl

/-- An array built from values holds them, and its tally is that of a scan. -/
theorem ofValues_spec (width : Width) {values : List Nat} (historic : α) (sized : values.length = p.size)
    (bounded : ∀ value ∈ values, value ≤ Coupon.maxValue) :
    (ofValues p width values historic).Sound ∧ (ofValues p width values historic).width = width ∧
      (ofValues p width values historic).values = values := by
  let built := ofValues p width values historic
  have nonempty : values ≠ [] := by
    intro none
    have := p.size_pos
    rw [← sized, none] at this
    simp at this
  obtain ⟨least, found⟩ := Option.isSome_iff_exists.mp (List.isSome_min?_of_ne_nil nonempty)
  obtain ⟨member, below⟩ := List.min?_eq_some_iff.mp found
  have base : built.tally.base = if tracksBase width then least else 0 := by
    simp [built, ofValues, Tally.scan, found]
  have range : ∀ value ∈ values, built.tally.base ≤ value ∧ value ≤ Coupon.maxValue := by
    intro value member
    refine ⟨?_, bounded value member⟩
    rw [base]
    split_ifs
    · exact below value member
    · exact Nat.zero_le _
  have relative : width ≠ .four → built.tally.base = 0 := by
    intro other
    rw [base, if_neg (by simpa [tracksBase] using other)]
  have limit : built.tally.base ≤ Coupon.maxValue :=
    Nat.le_trans (range least member).1 (range least member).2
  obtain ⟨registers, same, read⟩ := Registers.ofValues_spec width sized limit relative range
  have shown : built.values = values := by
    apply List.ext_getElem (by rw [length_values, sized]; rfl)
    intro slot inside other
    rw [length_values] at inside
    rw [getElem_values]
    exact (read slot inside).trans (by simp [other])
  have scanned : built.tally = built.scan := by
    rw [scan, shown, show built.width = width from same]
    rfl
  refine ⟨⟨⟨registers, ?_⟩, fun _ => ⟨congrArg _ scanned, congrArg _ scanned⟩, ?_⟩, same, shown⟩
  · have counted : values.count built.tally.base ≤ p.size := sized ▸ List.count_le_length
    exact counted
  · intro kept pending
    cases pending

theorem currentTally_eq_scan (sound : a.Sound) (pending : a.upkeep ≠ .settled) :
    a.currentTally = a.scan := by
  unfold currentTally
  split
  · contradiction
  · exact sound.scanned _ ‹_›
  · rfl

/-- The registers are encoded against the base of a scan, whatever base they had before. -/
private theorem rebased_spec (encoded : a.Encoded) :
    a.rebased.Sound a.precision a.scan.base ∧ a.rebased.width = a.width ∧
      ∀ slot < a.precision.size, a.rebased.get a.scan.base slot = a.get slot := by
  by_cases tracked : a.width = .four
  · obtain ⟨cells, exceptions, four⟩ : ∃ cells exceptions, a.registers = .four cells exceptions := by
      unfold RegisterArray.width Registers.width at tracked
      split at tracked
      · exact ⟨_, _, ‹_›⟩
      · cases tracked
      · cases tracked
    obtain ⟨least, found⟩ := Option.isSome_iff_exists.mp
      (List.isSome_min?_of_ne_nil a.values_ne_nil)
    have base : a.scan.base = least := by
      simp [scan, Tally.scan, (tracksBase_iff a.width).mpr tracked, found]
    have shape : a.rebased = if least = a.tally.base then a.registers
        else .ofValues .four a.precision least a.values := by
      simp [rebased, four, found]
    rw [shape, base]
    split_ifs with same
    · rw [same]
      exact ⟨encoded.registers, rfl, fun _ _ => rfl⟩
    · obtain ⟨_, below⟩ := List.min?_eq_some_iff.mp found
      have range : ∀ value ∈ a.values, least ≤ value ∧ value ≤ Coupon.maxValue := by
        intro value member
        obtain ⟨slot, inside, rfl⟩ := mem_values.mp member
        exact ⟨below _ member, encoded.get_le inside⟩
      obtain ⟨registers, width, read⟩ := Registers.ofValues_spec .four a.length_values
        (base ▸ scan_base_le encoded) (fun other => absurd rfl other) range
      refine ⟨registers, width.trans tracked.symm, fun slot inside => ?_⟩
      rw [read slot inside, getElem?_values inside, Option.getD_some]
  · have base : a.scan.base = a.tally.base := by
      rw [a.scan_base_spec.2.2 tracked, encoded.base_eq_zero tracked]
    have shape : a.rebased = a.registers := by
      unfold rebased
      split
      · rename_i four
        simp [RegisterArray.width, Registers.width, four] at tracked
      · rfl
    rw [shape, base]
    exact ⟨encoded.registers, rfl, fun _ _ => rfl⟩

/-- Making up for a pending tally changes no value. -/
theorem settle_spec (sound : a.Sound) :
    a.settle.Sound ∧ a.settle.upkeep = .settled ∧ a.settle.width = a.width ∧
      a.settle.tally = a.currentTally ∧
      ∀ slot < a.precision.size, a.settle.get slot = a.get slot := by
  cases upkeep : a.upkeep with
  | settled =>
    have same : a.settle = a := by simp [settle, upkeep]
    rw [same]
    exact ⟨sound, upkeep, rfl, by simp [currentTally, upkeep], fun _ _ => rfl⟩
  | pending kept =>
    have current := currentTally_eq_scan sound (by simp [upkeep])
    have shape : a.settle =
        { a with registers := a.rebased, tally := a.scan, upkeep := .settled } := by
      simp [settle, upkeep, current]
    obtain ⟨registers, width, read⟩ := rebased_spec sound.toEncoded
    have values : a.settle.values = a.values :=
      values_congr (by rw [shape]) (by rw [shape]; exact read)
    have scanned : a.settle.scan = a.scan := scan_congr (by rw [shape]; exact width) values
    refine ⟨⟨⟨?_, ?_⟩, ?_, ?_⟩, ?_, ?_, ?_, ?_⟩
    · rw [shape]
      exact registers
    · rw [shape]
      exact a.scan_atBase_le
    · intro _
      rw [scanned, shape]
      exact ⟨rfl, rfl⟩
    · rw [shape]
      intro _ pending
      cases pending
    · rw [shape]
    · rw [shape]
      exact width
    · rw [current, shape]
    · rw [shape]
      exact read

@[simp] theorem precision_settle (a : RegisterArray α) : a.settle.precision = a.precision := by
  unfold settle
  split <;> rfl

@[simp] theorem historic_settle (a : RegisterArray α) : a.settle.historic = a.historic := by
  unfold settle
  split <;> rfl

private theorem raise_read (encoded : a.Encoded) (inside : slot < a.precision.size)
    (larger : a.get slot < new) (bound : new ≤ Coupon.maxValue) :
    (a.raise slot (a.get slot) new).registers.Sound a.precision a.tally.base ∧
      (a.raise slot (a.get slot) new).width = a.width ∧
      ∀ other < a.precision.size,
        (a.raise slot (a.get slot) new).get other = if other = slot then new else a.get other := by
  obtain ⟨registers, width, read⟩ :=
    Registers.put_spec encoded.registers inside (Nat.le_of_lt larger) bound
  have base : (a.raise slot (a.get slot) new).tally.base = a.tally.base := Tally.base_replace ..
  refine ⟨registers, width, fun other below => ?_⟩
  rw [get, base]
  exact read other below

/-- The registers at the base are counted on while the tally is kept up. -/
theorem atBase_raise (sound : a.Sound) (settled : a.upkeep = .settled)
    (inside : slot < a.precision.size) (larger : a.get slot < new) (bound : new ≤ Coupon.maxValue) :
    (a.raise slot (a.get slot) new).tally.atBase =
      (a.raise slot (a.get slot) new).values.count a.tally.base := by
  obtain ⟨_, _, read⟩ := raise_read sound.toEncoded inside larger bound
  have atBase : (a.raise slot (a.get slot) new).tally.atBase =
      if a.get slot = a.tally.base then a.tally.atBase - 1 else a.tally.atBase := by
    simp [raise]
  have values : (a.raise slot (a.get slot) new).values = a.values.set slot new := values_set rfl read
  obtain ⟨base_eq, atBase_eq⟩ := sound.settled settled
  have least := sound.base_le_get slot
  have place : slot < a.values.length := by simpa using inside
  rw [atBase, values, List.count_set place, getElem_values, atBase_eq, scan_atBase, base_eq]
  have apart : (new == a.scan.base) = false := by
    rw [beq_eq_false_iff_ne]
    omega
  simp only [apart, beq_iff_eq, Bool.false_eq_true, if_false, Nat.add_zero]
  split_ifs <;> omega

/-- A tally is put off by the last register that leaves a base that moves. -/
theorem isPending_raise (a : RegisterArray α) (slot old new : Nat) :
    (a.raise slot old new).isPending =
      decide (old = a.tally.base ∧ (a.raise slot old new).tally.atBase = 0 ∧
        tracksBase (a.raise slot old new).width) := by
  have upkeep : (a.raise slot old new).upkeep =
      if old = (a.tally.replace old new).base ∧ (a.raise slot old new).tally.atBase = 0 ∧
        tracksBase (a.raise slot old new).width then .pending none else .settled := rfl
  rw [Tally.base_replace] at upkeep
  rw [isPending, upkeep]
  split_ifs with left
  · exact (decide_eq_true left).symm
  · exact (decide_eq_false left).symm

/-- Raising a register of a settled array changes it alone. The tally stays that of a scan, unless the
last register has left a base that moves: it is pending then. -/
theorem raise_spec (sound : a.Sound) (settled : a.upkeep = .settled)
    (inside : slot < a.precision.size) (larger : a.get slot < new) (bound : new ≤ Coupon.maxValue) :
    (a.raise slot (a.get slot) new).Sound ∧ (a.raise slot (a.get slot) new).width = a.width ∧
      ∀ other < a.precision.size,
        (a.raise slot (a.get slot) new).get other = if other = slot then new else a.get other := by
  obtain ⟨registers, same, shown⟩ := raise_read sound.toEncoded inside larger bound
  have counted := atBase_raise sound settled inside larger bound
  have pending := isPending_raise a slot (a.get slot) new
  have base : (a.raise slot (a.get slot) new).tally.base = a.tally.base := Tally.base_replace ..
  obtain ⟨base_eq, _⟩ := sound.settled settled
  refine ⟨⟨⟨?_, ?_⟩, ?_, ?_⟩, same, shown⟩
  · rw [base]
    exact registers
  · rw [counted, ← length_values]
    exact List.count_le_length
  · intro upkeep
    rw [settled_iff.mp upkeep, eq_comm, decide_eq_false_iff_not, same, tracksBase_iff] at pending
    have scanned : (a.raise slot (a.get slot) new).scan.base = a.tally.base := by
      obtain ⟨below, attained, zero⟩ := a.scan_base_spec
      refine scan_base_eq (fun other inside => ?_) (fun four => ?_) (fun other => ?_)
      · rw [shown other inside]
        split_ifs with here
        · rw [← here] at larger
          exact Nat.le_trans (sound.base_le_get other) (Nat.le_of_lt larger)
        · exact sound.base_le_get other
      · rw [same] at four
        by_cases left : a.get slot = a.tally.base
        · have some : 0 < (a.raise slot (a.get slot) new).values.count a.tally.base := by
            rw [← counted]
            exact Nat.pos_of_ne_zero (fun gone => pending ⟨left, gone, four⟩)
          exact mem_values.mp (List.count_pos_iff.mp some)
        · obtain ⟨other, inside, least⟩ := attained four
          rw [← base_eq] at least
          have apart : other ≠ slot := by
            intro here
            exact left (here ▸ least)
          exact ⟨other, inside, by rw [shown other inside, if_neg apart, least]⟩
      · rw [same] at other
        exact sound.base_eq_zero other
    exact ⟨base.trans scanned.symm, by rw [scan_atBase, scanned]; exact counted⟩
  · intro kept pending
    simp only [raise] at pending
    split_ifs at pending <;> cases pending

/-- An array with the historic estimate that it has after a change. -/
def credited (a : RegisterArray α) (inOrder : Bool) : RegisterArray α :=
  { a with historic := if inOrder then a.historic + a.credit else a.historic }

theorem sound_credited (sound : a.Sound) (inOrder : Bool) : (a.credited inOrder).Sound :=
  ⟨⟨sound.registers, sound.atBase_le⟩, sound.settled, sound.scanned⟩

/-- A coupon settles the array first. A value that is no larger than that of its register changes nothing
else. -/
theorem update_eq (a : RegisterArray α) (c : Coupon) (inOrder : Bool) :
    a.update c inOrder =
      if c.value ≤ a.settle.tally.base then a.settle
      else if c.value ≤ a.settle.get (c.register a.settle.precision.size) then a.settle
      else (a.settle.credited inOrder).raise (c.register a.settle.precision.size)
        (a.settle.get (c.register a.settle.precision.size)) c.value := rfl

theorem precision_update (a : RegisterArray α) (c : Coupon) (inOrder : Bool) :
    (a.update c inOrder).precision = a.precision := by
  rw [update_eq]
  split_ifs <;> exact precision_settle a

/-- An update leaves the history as it is, or adds to it what the change is worth. -/
theorem historic_update_cases (a : RegisterArray α) (c : Coupon) :
    (a.update c true).historic = a.historic ∨
      (a.update c true).historic = a.historic + a.settle.credit := by
  rw [update_eq, ← historic_settle a]
  split_ifs
  · exact .inl rfl
  · exact .inl rfl
  · exact .inr rfl

/-- A coupon settles the array, and changes it only if its value exceeds that of its register. -/
theorem update_cases (sound : a.Sound) (c : Coupon) (inOrder : Bool) :
    (c.value ≤ a.get (c.register a.precision.size) ∧ a.update c inOrder = a.settle) ∨
    (a.get (c.register a.precision.size) < c.value ∧
      a.update c inOrder = (a.settle.credited inOrder).raise (c.register a.precision.size)
        (a.settle.get (c.register a.precision.size)) c.value) := by
  obtain ⟨sound', _, _, _, read⟩ := settle_spec sound
  have slot_lt : c.register a.precision.size < a.precision.size := Nat.mod_lt _ a.precision.size_pos
  have least := sound'.base_le_get (c.register a.precision.size)
  rw [update_eq, precision_settle, ← read _ slot_lt]
  by_cases held : c.value ≤ a.settle.get (c.register a.precision.size)
  · left
    refine ⟨held, ?_⟩
    simp only [if_pos held, ite_self]
  · right
    refine ⟨Nat.lt_of_not_le held, ?_⟩
    rw [if_neg (by omega), if_neg held]

/-- A coupon raises its register to its value, and leaves the others alone. -/
theorem update_spec (sound : a.Sound) (c : Coupon) (inOrder : Bool) :
    (a.update c inOrder).Sound ∧ (a.update c inOrder).precision = a.precision ∧
      (a.update c inOrder).width = a.width ∧
      ∀ slot < a.precision.size, (a.update c inOrder).get slot =
        if slot = c.register a.precision.size then max (a.get slot) c.value else a.get slot := by
  obtain ⟨sound', settled, width, _, read⟩ := settle_spec sound
  have inside : c.register a.precision.size < a.precision.size := Nat.mod_lt _ a.precision.size_pos
  rcases update_cases sound c inOrder with ⟨held, same⟩ | ⟨larger, raised⟩
  · rw [same]
    refine ⟨sound', precision_settle a, width, fun slot below => ?_⟩
    rw [read slot below]
    split_ifs with here
    · rw [here, Nat.max_eq_left held]
    · rfl
  · rw [raised]
    have fits : c.register a.precision.size < (a.settle.credited inOrder).precision.size := by
      rw [show (a.settle.credited inOrder).precision = a.settle.precision from rfl, precision_settle]
      exact inside
    obtain ⟨sound'', width', read'⟩ := raise_spec (sound_credited sound' inOrder) settled fits
      (by rw [← read _ inside] at larger; exact larger) c.value_le_maxValue
    refine ⟨sound'', precision_settle a, width'.trans width, fun slot below => ?_⟩
    refine (read' slot (by simpa [credited] using below)).trans ?_
    split_ifs with here
    · rw [here, Nat.max_eq_right (Nat.le_of_lt larger)]
    · exact read slot below

end RegisterArray

end DistinctCount
