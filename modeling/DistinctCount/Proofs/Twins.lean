import DistinctCount.Image.Writer
import DistinctCount.Proofs.Origin

namespace DistinctCount

theorem mergeSort_eq_of_perm {β : Type} {le : β → β → Bool} {xs ys : List β}
    (trans : ∀ a b c, le a b → le b c → le a c) (total : ∀ a b, le a b || le b a)
    (antisymm : ∀ a ∈ xs, ∀ b ∈ xs, le a b → le b a → a = b) (perm : xs.Perm ys) :
    xs.mergeSort le = ys.mergeSort le := by
  have sorted : (xs.mergeSort le).Perm (ys.mergeSort le) :=
    (List.mergeSort_perm xs le).trans (perm.trans (List.mergeSort_perm ys le).symm)
  refine sorted.eq_of_pairwise (fun a b left right => ?_) (List.pairwise_mergeSort trans total xs)
    (List.pairwise_mergeSort trans total ys)
  exact antisymm a (List.mem_mergeSort.mp left) b (perm.symm.subset (List.mem_mergeSort.mp right))

theorem CouponSet.sorted_congr {s t : CouponSet} (perm : s.coupons.Perm t.coupons) :
    s.sorted = t.sorted := by
  refine mergeSort_eq_of_perm (fun a b c => ?_) (fun a b => ?_) (fun a _ b _ => ?_) perm
  · simpa using UInt32.le_trans
  · simpa using UInt32.le_total a.word b.word
  · intro left right
    have same := UInt32.le_antisymm (of_decide_eq_true left) (of_decide_eq_true right)
    exact congrArg Coupon.mk same

theorem Exceptions.sorted_congr {e f : Exceptions} (keyed : e.table.Keyed (keying e.precision))
    (perm : e.bindings.Perm f.bindings) : e.sorted = f.sorted := by
  refine mergeSort_eq_of_perm (fun a b c => ?_) (fun a b => ?_) (fun a here b there => ?_) perm
  · simpa using Nat.le_trans
  · simpa using Nat.le_total a.1 b.1
  · intro left right
    have same := Nat.le_antisymm (of_decide_eq_true left) (of_decide_eq_true right)
    exact List.inj_on_of_nodup_map (nodup_slots keyed) here there same

namespace Registers

variable {p : Precision} {base slot value : Nat} {cells others : Nibbles}
  {exceptions exceptions' : Option Exceptions}

/-- The exceptions are those values that a nibble cannot hold. -/
theorem Agrees.lookup_eq_some_iff (agrees : Agrees p base cells exceptions) (inside : slot < p.size) :
    lookup exceptions slot = some value ↔
      (four cells exceptions).get base slot = value ∧ base + token ≤ value := by
  constructor
  · intro held
    exact ⟨(agrees.get_held held).2, (agrees.range slot value held).1⟩
  · rintro ⟨rfl, large⟩
    cases held : lookup exceptions slot with
    | none =>
      obtain ⟨inline, read⟩ := agrees.get_inline inside held
      omega
    | some value => rw [(agrees.get_held held).2]

private theorem lookup_congr (left : Agrees p base cells exceptions)
    (right : Agrees p base others exceptions')
    (same : ∀ slot < p.size, (four cells exceptions).get base slot = (four others exceptions').get base slot)
    (slot : Nat) : lookup exceptions slot = lookup exceptions' slot := by
  apply Option.ext
  intro value
  by_cases inside : slot < p.size
  · rw [left.lookup_eq_some_iff inside, right.lookup_eq_some_iff inside, same slot inside]
  · exact iff_of_false (fun held => inside (left.slot_lt held)) (fun held => inside (right.slot_lt held))

/-- Nibbles that hold the same values against one base are the same, and their exceptions are alike but
for the order of their tables. -/
theorem Agrees.congr (left : Agrees p base cells exceptions) (right : Agrees p base others exceptions')
    (same : ∀ slot < p.size,
      (four cells exceptions).get base slot = (four others exceptions').get base slot) :
    cells = others ∧
      (exceptions = none ∧ exceptions' = none ∨
        ∃ e f, exceptions = some e ∧ exceptions' = some f ∧ e.sorted = f.sorted ∧ e.count = f.count ∧
          e.table.lgSize = f.table.lgSize) := by
  have alike := lookup_congr left right same
  have empty {e : Exceptions} (sound : e.Sound) (used : e.bindings ≠ [])
      (none : ∀ slot, e.get? slot = none) : False := by
    obtain ⟨⟨slot, value⟩, member⟩ := List.exists_mem_of_ne_nil _ used
    have held := (Exceptions.get?_eq_some_iff sound.keyed sound.room).mpr member
    rw [none slot] at held
    cases held
  refine ⟨Nibbles.ext_get left.size right.size (fun slot inside => ?_), ?_⟩
  · have read := same slot inside
    cases held : lookup exceptions slot with
    | none =>
      rw [(left.get_inline inside held).2, (right.get_inline inside ((alike slot).symm.trans held)).2]
        at read
      exact Nat.add_left_cancel read
    | some value =>
      rw [(left.get_held held).1, (right.get_held ((alike slot).symm.trans held)).1]
  · cases exceptions with
    | none =>
      cases exceptions' with
      | none => exact .inl ⟨rfl, rfl⟩
      | some f =>
        obtain ⟨sound, _, used⟩ := right.sound f rfl
        exact (empty sound used (fun slot => (alike slot).symm)).elim
    | some e =>
      obtain ⟨sound, precision, used⟩ := left.sound e rfl
      cases exceptions' with
      | none => exact (empty sound used alike).elim
      | some f =>
        obtain ⟨sound', precision', _⟩ := right.sound f rfl
        have perm := Exceptions.bindings_perm sound.serviceable sound'.serviceable alike
        have count : e.count = f.count := by
          rw [Exceptions.count_eq sound.keyed, Exceptions.count_eq sound'.keyed, perm.length_eq]
        exact .inr ⟨e, f, rfl, rfl, Exceptions.sorted_congr sound.keyed perm, count,
          Exceptions.lgSize_eq_of_count_eq sound sound' (precision.trans precision'.symm) count⟩

end Registers

namespace RegisterArray

section

variable {α : Type} {a b : RegisterArray α} {slot : Nat}

/-- Arrays that differ at most in the order of their exceptions, and in whether a pending tally has
been scanned. -/
structure Twin (a b : RegisterArray α) : Prop where
  precision : a.precision = b.precision
  width : a.width = b.width
  values : a.values = b.values
  tally : a.tally = b.tally
  historic : a.historic = b.historic
  pending : a.isPending = b.isPending

theorem Twin.refl (a : RegisterArray α) : a.Twin a := ⟨rfl, rfl, rfl, rfl, rfl, rfl⟩

theorem Twin.get (twin : a.Twin b) (inside : slot < b.precision.size) : a.get slot = b.get slot :=
  get_congr twin.values inside

/-- What a compact image says of an array. -/
private theorem Twin.registers (twin : a.Twin b) (left : a.Encoded) (right : b.Encoded) :
    a.registers.bytes = b.registers.bytes ∧
      a.registers.exceptionCount = b.registers.exceptionCount ∧
      a.lgTableSize = b.lgTableSize ∧ a.entries .compact = b.entries .compact ∧
      a.entryCount .compact = b.entryCount .compact := by
  obtain ⟨p, registers, tally, historic, upkeep⟩ := a
  obtain ⟨q, registers', tally', historic', upkeep'⟩ := b
  obtain rfl : p = q := twin.precision
  obtain rfl : tally = tally' := twin.tally
  have width := twin.width
  have same : ∀ slot < p.size, registers.get tally.base slot = registers'.get tally.base slot :=
    fun slot inside => twin.get inside
  have packed := left.registers.packed
  have packed' := right.registers.packed
  cases registers with
  | four cells exceptions =>
    cases registers' with
    | six | eight => cases width
    | four others exceptions' =>
      obtain ⟨rfl, alike⟩ := Registers.Agrees.congr packed packed' same
      rcases alike with ⟨rfl, rfl⟩ | ⟨e, f, rfl, rfl, sorted, count, size⟩
      · exact ⟨rfl, rfl, rfl, rfl, rfl⟩
      · refine ⟨rfl, count, size, ?_, count⟩
        simp only [entries, sorted]
  | six cells =>
    cases registers' with
    | four | eight => cases width
    | six others =>
      obtain rfl := Sextets.ext_get p.size_mod_four packed.1 packed'.1 same
        (packed.2.1.trans packed'.2.1.symm)
      exact ⟨rfl, rfl, rfl, rfl, rfl⟩
  | eight cells =>
    cases registers' with
    | four | six => cases width
    | eight others =>
      obtain rfl := Octets.ext_get packed.1 packed'.1 same
      exact ⟨rfl, rfl, rfl, rfl, rfl⟩

end

section

variable {α : Type} [Scalar α] {a b : RegisterArray α}

theorem Twin.scan (twin : a.Twin b) : a.scan = b.scan := scan_congr twin.width twin.values

/-- A twin of an exact array is exact, if its registers are sound and a scan that it keeps is one of them. -/
theorem Twin.exact (twin : a.Twin b) (exact : b.Exact)
    (registers : a.registers.Sound a.precision a.tally.base)
    (scanned : ∀ kept, a.upkeep = .pending (some kept) → kept = a.scan) : a.Exact := by
  have scan : a.upkeep = .settled → a.tally = a.scan := by
    intro settled
    rw [twin.tally, twin.scan]
    exact exact.exact (settled_iff.mpr (twin.pending ▸ settled_iff.mp settled))
  refine ⟨⟨⟨registers, ?_⟩, fun settled => ?_, scanned⟩, scan⟩
  · rw [twin.tally, twin.precision]
    exact exact.atBase_le
  · exact ⟨congrArg Tally.base (scan settled), congrArg Tally.atBase (scan settled)⟩

theorem Twin.currentTally (twin : a.Twin b) (left : a.Exact) (right : b.Exact) :
    a.currentTally = b.currentTally := by
  rw [left.currentTally, right.currentTally, twin.scan]

end

variable {α : Type} [Analytic α] {a b : RegisterArray α}

theorem Twin.compositeEstimate (twin : a.Twin b) (left : a.Exact) (right : b.Exact) :
    a.compositeEstimate = b.compositeEstimate := by
  rw [RegisterArray.compositeEstimate, RegisterArray.compositeEstimate, twin.precision,
    twin.currentTally left right]

theorem Twin.estimate (twin : a.Twin b) (left : a.Exact) (right : b.Exact) (outOfOrder : Bool) :
    a.estimate outOfOrder = b.estimate outOfOrder := by
  rw [RegisterArray.estimate, RegisterArray.estimate, twin.compositeEstimate left right, twin.historic]

theorem Twin.lowerBound (twin : a.Twin b) (left : a.Exact) (right : b.Exact) (outOfOrder : Bool)
    (deviation : Deviation) : a.lowerBound outOfOrder deviation = b.lowerBound outOfOrder deviation := by
  rw [RegisterArray.lowerBound, RegisterArray.lowerBound, twin.precision, twin.currentTally left right,
    twin.estimate left right]

theorem Twin.upperBound (twin : a.Twin b) (left : a.Exact) (right : b.Exact) (outOfOrder : Bool)
    (deviation : Deviation) : a.upperBound outOfOrder deviation = b.upperBound outOfOrder deviation := by
  rw [RegisterArray.upperBound, RegisterArray.upperBound, twin.precision, twin.estimate left right]

end RegisterArray

namespace Store

/-- Stores that differ at most in the order of their tables, and in whether a pending tally has been
scanned. -/
inductive Twin {α : Type} : Store α → Store α → Prop
  | list (coupons : CouponList) (width : Width) : Twin (.list coupons width) (.list coupons width)
  | set {a b : CouponSet} (width : Width) :
    a.coupons.Perm b.coupons → Twin (.set a width) (.set b width)
  | registers {a b : RegisterArray α} : a.Twin b → Twin (.registers a) (.registers b)

section

variable {α : Type} {s t : Store α}

theorem Twin.refl (s : Store α) : s.Twin s := by
  cases s with
  | list coupons width => exact .list coupons width
  | set set width => exact .set width (.refl _)
  | registers array => exact .registers (.refl array)

theorem Twin.mode (twin : s.Twin t) : s.mode = t.mode := by
  cases twin <;> rfl

theorem Twin.width (twin : s.Twin t) : s.width = t.width := by
  cases twin with
  | list | set => rfl
  | registers twin => exact twin.width

end

variable {α : Type} [Scalar α] {s t : Store α} {p : Precision} {coupons others : List Coupon}

/-- Sets with the same members have tables of the same size. -/
private theorem set_congr {a b : CouponSet} {width : Width}
    (left : (Store.set a width : Store α).Sound p) (right : (Store.set b width : Store α).Sound p)
    (perm : a.coupons.Perm b.coupons) : a.count = b.count ∧ a.table.lgSize = b.table.lgSize := by
  obtain ⟨keyed, size, _⟩ := left
  obtain ⟨keyed', size', _⟩ := right
  have count : a.count = b.count := by
    rw [CouponSet.count_eq keyed, CouponSet.count_eq keyed', perm.length_eq]
  exact ⟨count, by rw [size, size', count]⟩

end Store

namespace Sketch

/-- Sketches that differ at most in the order of their tables, and in whether a pending tally has been
scanned. -/
structure Twin {α : Type} (s t : Sketch α) : Prop where
  precision : s.precision = t.precision
  seed : s.seed = t.seed
  outOfOrder : s.outOfOrder = t.outOfOrder
  store : s.store.Twin t.store

/-- Sketches of which every question has the same answer. -/
structure AnswersLike {α : Type} [Analytic α] (s t : Sketch α) : Prop where
  mode : s.mode = t.mode
  estimate : s.estimate = t.estimate
  compositeEstimate : s.compositeEstimate = t.compositeEstimate
  lowerBound : ∀ deviation, s.lowerBound deviation = t.lowerBound deviation
  upperBound : ∀ deviation, s.upperBound deviation = t.upperBound deviation

/-- The tally of the registers as they are, if there are any. -/
def currentTally? {α : Type} [Scalar α] (s : Sketch α) : Option (Tally α) :=
  match s.store with
  | .registers array => some array.currentTally
  | _ => none

theorem Twin.currentTally? {α : Type} [Scalar α] {s t : Sketch α} {coupons others : List Coupon}
    (twin : s.Twin t) (left : s.Holds coupons) (right : t.Holds others) :
    s.currentTally? = t.currentTally? := by
  obtain ⟨p, seed, outOfOrder, store⟩ := s
  obtain ⟨q, seed', outOfOrder', store'⟩ := t
  obtain ⟨_, _, _, alike⟩ := twin
  obtain ⟨left, _⟩ := left
  obtain ⟨right, _⟩ := right
  cases alike with
  | list | set => rfl
  | registers twin => exact congrArg some (twin.currentTally left.registers.1 right.registers.1)

theorem Twin.answers {α : Type} [Analytic α] {s t : Sketch α} {coupons others : List Coupon}
    (twin : s.Twin t) (left : s.Holds coupons) (right : t.Holds others) : s.AnswersLike t := by
  obtain ⟨p, seed, outOfOrder, store⟩ := s
  obtain ⟨q, seed', outOfOrder', store'⟩ := t
  obtain ⟨precision, same, order, alike⟩ := twin
  cases precision
  cases order
  obtain ⟨left, _⟩ := left
  obtain ⟨right, _⟩ := right
  cases alike with
  | list list width => exact ⟨rfl, rfl, rfl, fun _ => rfl, fun _ => rfl⟩
  | set width perm =>
    obtain ⟨count, _⟩ := Store.set_congr left.sound right.sound perm
    constructor <;> simp only [Sketch.mode, Store.mode, Sketch.estimate, Store.estimate,
      Sketch.compositeEstimate, Store.compositeEstimate, Sketch.lowerBound, Store.lowerBound,
      Sketch.upperBound, Store.upperBound, count, implies_true]
  | registers twin =>
    have exact := left.registers.1
    have exact' := right.registers.1
    exact ⟨rfl, twin.estimate exact exact' _, twin.compositeEstimate exact exact',
      fun deviation => twin.lowerBound exact exact' _ deviation,
      fun deviation => twin.upperBound exact exact' _ deviation⟩

variable {s t : Sketch Float} {coupons others : List Coupon}

/-- Preamble, body and size of a compact image do not show the order of a table. -/
theorem Twin.image_compact (twin : s.Twin t) (left : s.Holds coupons) (right : t.Holds others) :
    s.image .compact = t.image .compact := by
  obtain ⟨p, seed, outOfOrder, store⟩ := s
  obtain ⟨q, seed', outOfOrder', store'⟩ := t
  obtain ⟨precision, same, order, alike⟩ := twin
  cases precision
  cases order
  obtain ⟨left, _⟩ := left
  obtain ⟨right, _⟩ := right
  cases alike with
  | list list width => rfl
  | set width perm =>
    obtain ⟨count, size⟩ := Store.set_congr left.sound right.sound perm
    simp only [image, writeOver, imageSize, Store.imageSize, preamble, Store.body, count, size,
      CouponSet.sorted_congr perm]
  | registers twin =>
    obtain ⟨bytes, count, size, entries, entryCount⟩ :=
      twin.registers left.registers.1.toEncoded right.registers.1.toEncoded
    simp only [image, writeOver, imageSize, Store.imageSize, RegisterArray.imageSize, preamble,
      Store.body, RegisterArray.body, bytes, count, size, entries, entryCount, twin.tally, twin.width,
      twin.historic, twin.pending]

end Sketch

end DistinctCount
