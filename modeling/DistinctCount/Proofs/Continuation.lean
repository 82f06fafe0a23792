import DistinctCount.Proofs.AcceptedRegisters
import DistinctCount.Proofs.Mirrors

/-! Registers that were read see the rest of a stream. If the sums of the image are those of its registers,
they stay so through every update; then no credit is void, the estimate does not fall, and the sketch can be
written and read again at any time. -/

namespace DistinctCount

open Reader (Reads)

namespace RegisterArray

variable {a : RegisterArray Float}

/-- An array of whatever origin that goes on like one that was built here. -/
structure Usable (a : RegisterArray Float) : Prop where
  mirrored : ∃ b : RegisterArray Float, a.Mirrors b ∧ b.Exact
  /-- The sums are those of a scan even while the tally is pending. -/
  tracked : ∀ high, a.tally.part high = a.scan.part high
  nonneg : 0 ≤ a.historic

theorem Usable.moderate_sum (usable : a.Usable) : Binary64.Moderate (-116) 2 a.tally.sum := by
  obtain ⟨b, mirrors, exact⟩ := usable.mirrored
  have sum : a.tally.sum = a.scan.sum := congrArg₂ (· + ·) (usable.tracked false) (usable.tracked true)
  rw [sum, mirrors.scan]
  exact RegisterArray.moderate_sum exact.toEncoded

theorem Usable.moderate_credit (usable : a.Usable) : Binary64.Moderate (-400) 400 a.settle.credit := by
  obtain ⟨b, mirrors, exact⟩ := usable.mirrored
  have settled := mirrors.settle exact.toSound
  have exact' := exact_settle exact
  obtain ⟨_, upkeep, _⟩ := settle_spec exact.toSound
  have credit : a.settle.credit = b.settle.credit := by
    rw [RegisterArray.credit, RegisterArray.credit, settled.precision, settled.tally]
  rw [credit]
  exact RegisterArray.moderate_credit exact'.toEncoded (exact'.exact upkeep)

theorem usable_update (usable : a.Usable) (c : Coupon) :
    (a.update c true).Usable ∧ a.historic ≤ (a.update c true).historic := by
  obtain ⟨b, mirrors, exact⟩ := usable.mirrored
  have mirrors' := mirrors.update exact.toSound c true
  have grows : a.historic ≤ (a.update c true).historic ∧ 0 ≤ (a.update c true).historic := by
    rcases historic_update_cases a c with same | added
    · rw [same]
      exact ⟨Binary64.le_self usable.nonneg, usable.nonneg⟩
    · rw [added]
      exact Binary64.le_add_moderate usable.nonneg usable.moderate_credit (by decide) (by decide)
  refine ⟨⟨⟨_, mirrors', exact_update exact c true⟩, fun high => ?_, grows.2⟩, grows.1⟩
  rw [mirrors'.tally, mirrors'.scan]
  exact part_update exact c true high

theorem usable_updateAll (usable : a.Usable) (stream : List Coupon) :
    (stream.foldl (fun a c => a.update c true) a).Usable ∧
      (stream.foldl (fun a c => a.update c true) a).precision = a.precision := by
  induction stream generalizing a with
  | nil => exact ⟨usable, rfl⟩
  | cons c rest ih =>
    obtain ⟨usable', same⟩ := ih (usable_update usable c).1
    exact ⟨usable', same.trans (precision_update a c true)⟩

theorem Usable.reads (usable : a.Usable) (flags : Flags) (pending : flags.pending = a.isPending) :
    a.lgTableSize < 256 ∧ a.tally.base < 256 ∧ ∃ again,
      Reads (read ⟨a.precision, a.lgTableSize, flags, a.tally.base, .registers, a.width⟩)
        (a.body flags.layout) again ∧ again.historic = a.historic := by
  obtain ⟨b, mirrors, exact⟩ := usable.mirrored
  have fits : Tally.Fits a.values := mirrors.values ▸ fits_values exact.toEncoded
  have base : a.tally.base ≤ Coupon.maxValue := mirrors.tally ▸ exact.base_le
  have zero : a.width ≠ .four → a.tally.base = 0 := fun other =>
    mirrors.tally ▸ exact.base_eq_zero (mirrors.width ▸ other)
  have atBase : a.tally.atBase ≤ a.precision.size := by
    rw [mirrors.tally, mirrors.precision]
    exact exact.atBase_le
  have readable : a.registers.Readable a.precision a.tally.base := by
    rw [mirrors.precision, mirrors.tally]
    exact mirrors.registers.readable exact.registers
  have described : a.isPending = false → a.tally = a.scan := by
    rw [mirrors.isPending, mirrors.tally, mirrors.scan]
    exact fun settled => exact.exact (settled_iff.mpr settled)
  obtain ⟨registers, reads, _⟩ := reads_of_readable readable fits base zero atBase described flags pending
  refine ⟨?_, Nat.lt_of_le_of_lt base (by decide), _, reads, ?_⟩
  · have small := Nat.le_trans (lgTableSize_le readable) (Exceptions.lgMaxSize_le _)
    exact Nat.lt_of_le_of_lt small (by decide)
  · split <;> rfl

theorem usable_of_readable (readable : a.registers.Readable a.precision a.tally.base)
    (bounded : ∀ value ∈ a.values, value ≤ Coupon.maxValue) (zero : a.width ≠ .four → a.tally.base = 0)
    (settled : a.upkeep = .settled) (exact : a.tally = a.scan) (nonneg : 0 ≤ a.historic) : a.Usable := by
  have inRange : ∀ slot < a.precision.size, a.registers.get a.tally.base slot ≤ Coupon.maxValue :=
    fun slot inside => bounded _ (mem_values.mpr ⟨slot, inside, rfl⟩)
  obtain ⟨registers, alike, sound⟩ := readable.exists_mirrored inRange zero
  let b : RegisterArray Float := { a with registers := registers }
  have mirrors : a.Mirrors b := ⟨rfl, alike, rfl, rfl, rfl⟩
  have scan : b.tally = b.scan := exact.trans mirrors.scan
  have atBase : b.tally.atBase ≤ b.precision.size := scan ▸ b.scan_atBase_le
  refine ⟨⟨b, mirrors, ⟨⟨⟨sound, atBase⟩, fun _ => ⟨congrArg _ scan, congrArg _ scan⟩, ?_⟩,
    fun _ => scan⟩⟩, fun high => congrArg (Tally.part · high) exact, nonneg⟩
  intro kept pending
  cases settled.symm.trans pending

end RegisterArray

namespace Sketch

variable {seed : UInt32} {bytes : List UInt8} {s : Sketch Float} {a : RegisterArray Float}

private theorem again_of_usable (registers : s.store = .registers a) (precision : s.precision = a.precision)
    (inOrder : s.outOfOrder = false) (usable : a.Usable) (layout : Layout) :
    ∃ t, ofImage s.seed.value (s.image layout) = .ok t ∧ t.estimate = a.historic := by
  obtain ⟨small, base, again, reads, historic⟩ :=
    usable.reads ⟨false, layout = .compact, false, a.isPending⟩ rfl
  rw [Flags.layout_compact] at reads
  have preamble : s.preamble layout = ⟨a.precision, a.lgTableSize, ⟨false, layout = .compact, false, a.isPending⟩,
      a.tally.base, .registers, a.width⟩ := by
    rw [Sketch.preamble, registers, precision, inOrder]
  have store : Reads (Store.read (s.preamble layout)) (s.store.body layout) (.registers again) := by
    rw [preamble, registers]
    exact .unless (by simp) (reads.last (Reader.reads_pure _))
  refine ⟨_, ofImage_of_reads (by rw [preamble]; exact small) (by rw [preamble]; exact base) store, ?_⟩
  rw [inOrder]
  exact historic

/-- A sketch in order that was read from an image with the sums of its registers goes on as if it had been
built here. Its sum stays positive, pending or not, and the credit of each change positive and finite; no
update makes the estimate less; and its own images are accepted at any time, with the same estimate. Tokens
that have no exception are excluded, as the images of such registers need not be readable. -/
theorem continues_of_ofImage (accepted : ofImage seed bytes = .ok s) (registers : s.store = .registers a)
    (settled : a.isPending = false) (inOrder : s.outOfOrder = false) (nonneg : 0 ≤ a.historic)
    (sums : a.tally.low = a.scan.low ∧ a.tally.high = a.scan.high)
    (covered : ∀ cells exceptions, a.registers = .four cells exceptions →
      Registers.Covered a.precision a.tally.base cells exceptions) (stream : List Coupon) :
    ∃ b, (s.addCoupons stream).store = .registers b ∧ 0 < b.tally.sum ∧ 0 < b.settle.credit ∧
      b.settle.credit.isFinite = true ∧
      (∀ c, (s.addCoupons stream).estimate ≤ ((s.addCoupons stream).addCoupon c).estimate) ∧
      ∀ layout, ∃ t, ofImage s.seed.value ((s.addCoupons stream).image layout) = .ok t ∧
        t.estimate = (s.addCoupons stream).estimate := by
  obtain ⟨precision, readable, zero, bounded, described⟩ :=
    RegisterArray.readable_of_ofImage accepted registers covered
  have upkeep := RegisterArray.settled_iff.mpr settled
  obtain ⟨base, atBase⟩ := described upkeep
  have exact : a.tally = a.scan :=
    Tally.ext_parts base atBase (fun high => by cases high; exacts [sums.1, sums.2])
  have start := RegisterArray.usable_of_readable readable bounded zero upkeep exact nonneg
  obtain ⟨usable, same⟩ := RegisterArray.usable_updateAll start stream
  generalize after : stream.foldl (fun a c => a.update c true) a = b at usable same
  have shape : s.addCoupons stream = ⟨b.precision, s.seed, false, .registers b⟩ := by
    rw [addCoupons_eq, inOrder, registers, same, ← precision]
    exact congrArg _ ((Store.foldl_update_registers a s.precision stream true).trans (congrArg _ after))
  rw [shape]
  refine ⟨b, rfl, usable.moderate_sum.pos, usable.moderate_credit.pos, usable.moderate_credit.isFinite,
    fun c => (RegisterArray.usable_update usable c).2, fun layout => ?_⟩
  exact again_of_usable (s := ⟨b.precision, s.seed, false, .registers b⟩) rfl rfl rfl usable layout

/-- A compact image of sixteen registers of eight bits, of which only the first is still zero, with this sum. -/
def firstZero (sum : List UInt8) : List UInt8 :=
  [10, 1, 7, 4, 0, 8, 0, 10] ++ List.replicate 8 0 ++ sum ++ List.replicate 8 0 ++ [1, 0, 0, 0] ++
    List.replicate 4 0 ++ [0] ++ List.replicate 15 20

set_option maxRecDepth 4000 in
/-- The exact sum, and the coupons of two registers. -/
theorem continues_firstZero :
    ∃ s a b, ofImage Seed.standard.value (firstZero [0, 0, 0, 0, 0x0f, 0, 0xf0, 0x3f]) = .ok s ∧
      s.store = .registers a ∧ a.isPending = false ∧ s.outOfOrder = false ∧ 0 ≤ a.historic ∧
      (a.tally.low = a.scan.low ∧ a.tally.high = a.scan.high) ∧
      (s.addCoupons [.pack 0 20, .pack 1 21]).store = .registers b ∧ 0 < b.tally.sum ∧
      ∃ t, ofImage s.seed.value ((s.addCoupons [.pack 0 20, .pack 1 21]).image .compact) = .ok t := by
  have read : ∃ s a, ofImage Seed.standard.value (firstZero [0, 0, 0, 0, 0x0f, 0, 0xf0, 0x3f]) = .ok s ∧
      s.store = .registers a ∧ a.isPending = false ∧ s.outOfOrder = false ∧ 0 ≤ a.historic ∧
      (a.tally.low = a.scan.low ∧ a.tally.high = a.scan.high) ∧ a.width = .eight := by
    rw [ofImage, Seed.check_value]
    exact ⟨_, _, rfl, rfl, rfl, rfl, by decide +kernel, ⟨by decide +kernel, by decide +kernel⟩, rfl⟩
  obtain ⟨s, a, accepted, registers, settled, inOrder, nonneg, sums, width⟩ := read
  have covered : ∀ cells exceptions, a.registers = .four cells exceptions →
      Registers.Covered a.precision a.tally.base cells exceptions := by
    intro cells exceptions four
    rw [RegisterArray.width, four] at width
    cases width
  obtain ⟨b, after, positive, _, _, _, readable⟩ := continues_of_ofImage accepted registers settled inOrder
    nonneg sums covered [.pack 0 20, .pack 1 21]
  obtain ⟨t, again, _⟩ := readable .compact
  exact ⟨s, a, b, accepted, registers, settled, inOrder, nonneg, sums, after, positive, t, again⟩

set_option maxRecDepth 4000 in
/-- A sum that is too small by less than a part in ten thousand is accepted. Once the zero register is
raised it is not positive any more, the next change lowers the estimate, and the sketch is refused. -/
theorem sum_not_pos_of_tolerance :
    ∃ s a b, ofImage Seed.standard.value (firstZero [0, 0, 0, 0, 0x60, 0xff, 0xef, 0x3f]) = .ok s ∧
      s.store = .registers a ∧ a.isPending = false ∧ s.outOfOrder = false ∧ 0 ≤ a.historic ∧
      a.historic.isFinite = true ∧ (s.addCoupon (.pack 0 20)).store = .registers b ∧ ¬ 0 < b.tally.sum ∧
      ((s.addCoupon (.pack 0 20)).addCoupon (.pack 1 21)).estimate < (s.addCoupon (.pack 0 20)).estimate ∧
      (ofImage s.seed.value ((s.addCoupon (.pack 0 20)).image .compact)).isOk = false := by
  rw [ofImage, Seed.check_value]
  refine ⟨_, _, _, rfl, rfl, rfl, rfl, by decide +kernel, by decide +kernel, rfl, by decide +kernel,
    by decide +kernel, ?_⟩
  rw [ofImage, Seed.check_value]
  decide +kernel

end Sketch

end DistinctCount
