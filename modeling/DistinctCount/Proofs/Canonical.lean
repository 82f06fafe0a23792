import DistinctCount.Proofs.RoundTrip

namespace DistinctCount

namespace RegisterArray

variable {α : Type} {a b : RegisterArray α}

/-- Arrays without pending upkeep that have the same values and the same history. -/
structure KnowsLike (a b : RegisterArray α) : Prop where
  values : a.values = b.values
  historic : a.historic = b.historic
  settled : a.isPending = false
  settled' : b.isPending = false

/-- A settled tally is that of a scan, so it is known from the values. -/
theorem KnowsLike.twin [Scalar α] (alike : a.KnowsLike b) (left : a.Exact) (right : b.Exact)
    (precision : a.precision = b.precision) (width : a.width = b.width) : a.Twin b := by
  refine ⟨precision, width, alike.values, ?_, alike.historic, alike.settled.trans alike.settled'.symm⟩
  rw [left.exact (settled_iff.mpr alike.settled), right.exact (settled_iff.mpr alike.settled'),
    scan_congr width alike.values]

def withHistory (a : RegisterArray α) (historic : α) : RegisterArray α := { a with historic := historic }

theorem exact_withHistory [Scalar α] (exact : a.Exact) (historic : α) : (a.withHistory historic).Exact :=
  ⟨⟨⟨exact.registers, exact.atBase_le⟩, exact.settled, exact.scanned⟩, exact.exact⟩

end RegisterArray

namespace Store

section

variable {α : Type}

/-- Stores that know the same coupons, or the same values of the registers. A list is in order of
arrival, and this says nothing of it. -/
inductive KnowsLike : Store α → Store α → Prop
  | set {a b : CouponSet} (width width' : Width) :
    (∀ c, c ∈ a.coupons ↔ c ∈ b.coupons) → KnowsLike (.set a width) (.set b width')
  | registers {a b : RegisterArray α} : a.KnowsLike b → KnowsLike (.registers a) (.registers b)

def withHistory (s : Store α) (historic : α) : Store α :=
  match s with
  | .registers array => .registers (array.withHistory historic)
  | s => s

end

variable {α : Type} [Scalar α] {s t : Store α} {p : Precision} {coupons others : List Coupon}

theorem KnowsLike.twin (alike : s.KnowsLike t) (left : s.Holds p coupons) (right : t.Holds p others)
    (width : s.width = t.width) : s.Twin t := by
  cases alike with
  | set old new same =>
    cases width
    obtain ⟨distinct, _⟩ := sound_coupons left.sound rfl
    obtain ⟨distinct', _⟩ := sound_coupons right.sound rfl
    exact .set old ((List.perm_ext_iff_of_nodup distinct distinct').mpr same)
  | registers alike =>
    exact .registers (alike.twin left.registers.1 right.registers.1
      (left.sound.2.trans right.sound.2.symm) width)

theorem holds_withHistory (holds : s.Holds p coupons) (historic : α) :
    (s.withHistory historic).Holds p coupons := by
  cases s with
  | list list width => exact holds
  | set set width => exact holds
  | registers array =>
    obtain ⟨exact, precision, mode, bounds⟩ := holds.registers
    exact holds_registers (RegisterArray.exact_withHistory exact historic) precision mode bounds

omit [Scalar α] in
theorem width_withHistory (s : Store α) (historic : α) : (s.withHistory historic).width = s.width := by
  cases s <;> rfl

theorem width_settle (holds : s.Holds p coupons) : s.settle.width = s.width := by
  cases s with
  | list | set => rfl
  | registers array => exact (RegisterArray.settle_spec holds.registers.1.toSound).2.2.1

omit [Scalar α] in
theorem withHistory_of_set {historic : α} (set : s.mode = .set) : s.withHistory historic = s := by
  cases s with
  | list | set => rfl
  | registers => cases set

def IsSettled (s : Store α) : Prop := ∀ array, s.content = .registers array → array.isPending = false

theorem isSettled_settle (holds : s.Holds p coupons) : s.settle.IsSettled := by
  intro array content
  cases s with
  | list | set => cases content
  | registers old =>
    cases content
    exact RegisterArray.settled_iff.mp (RegisterArray.settle_spec holds.registers.1.toSound).2.1

/-- What is known of the same coupons, when they are too many for a list and nothing is put off, is the
same but for the historic estimates. -/
theorem knowsLike_of_same_coupons (left : s.Holds p coupons) (right : t.Holds p others)
    (same : ∀ c, c ∈ coupons ↔ c ∈ others) (many : CouponList.capacity ≤ coupons.dedup.length)
    (settled : s.IsSettled) (settled' : t.IsSettled) (historic : α) :
    (s.withHistory historic).KnowsLike (t.withHistory historic) := by
  have right' := right.congr (fun c => (same c).symm)
  have notList : s.mode ≠ .list := by
    rw [left.represents.mode, modeFor, if_neg (Nat.not_lt_of_le many)]
    split_ifs <;> simp
  have modes : s.mode = t.mode := left.represents.mode.trans right'.represents.mode.symm
  cases s with
  | list => exact absurd rfl notList
  | set a width =>
    cases t with
    | list | registers => cases modes
    | set b width' =>
      refine .set width width' (fun c => ?_)
      exact (left.represents.held _ rfl c).trans (right'.represents.held _ rfl c).symm
  | registers a =>
    cases t with
    | list | set => cases modes
    | registers b =>
      have values : a.values = b.values := by
        refine RegisterArray.values_congr (left.sound.2.trans right.sound.2.symm) (fun slot inside => ?_)
        rw [right.sound.2] at inside
        rw [left.represents.read _ rfl slot inside, right'.represents.read _ rfl slot inside]
      exact .registers ⟨values, rfl, settled a rfl, settled' b rfl⟩

end Store

namespace Sketch

def withHistory {α : Type} (s : Sketch α) (historic : α) : Sketch α :=
  { s with store := s.store.withHistory historic }

variable {s t : Sketch Float} {coupons others : List Coupon}

/-- Nothing but what a sketch knows is shown by a compact image, not even its seed. -/
theorem image_compact_of_knowsLike (left : s.Holds coupons) (right : t.Holds others)
    (precision : s.precision = t.precision) (width : s.width = t.width)
    (order : s.outOfOrder = t.outOfOrder) (alike : s.store.KnowsLike t.store) :
    s.image .compact = t.image .compact := by
  have right' : ({ t with seed := s.seed } : Sketch Float).Holds others := ⟨right.store, right.valued⟩
  have twin : s.Twin { t with seed := s.seed } :=
    ⟨precision, rfl, order, alike.twin (precision ▸ left.store) right.store width⟩
  exact twin.image_compact left right'

/-- The historic estimate takes the second eight bytes of an image of registers, and no others. -/
private theorem image_registers (p : Precision) (seed : Seed) (outOfOrder : Bool)
    (array : RegisterArray Float) (layout : Layout) :
    ∃ front tail : List UInt8, front.length = 8 ∧ ∀ historic,
      (⟨p, seed, outOfOrder, .registers (array.withHistory historic)⟩ : Sketch Float).image layout =
        front ++ (floatBytes historic ++ tail) := by
  let rest := floatBytes array.tally.low ++ floatBytes array.tally.high ++ leBytes 4 array.tally.atBase
    ++ leBytes 4 array.registers.exceptionCount ++ array.registers.bytes.toList
    ++ couponBytes (array.entries layout)
  let s : Sketch Float := ⟨p, seed, outOfOrder, .registers array⟩
  let buffer := List.replicate (s.imageSize layout) (0 : UInt8)
  refine ⟨(s.preamble layout).bytes, rest ++ buffer.drop (16 + rest.length), rfl, fun historic => ?_⟩
  have written : (RegisterArray.withHistory array historic).body layout = floatBytes historic ++ rest := by
    simp only [RegisterArray.body, RegisterArray.withHistory, List.append_assoc, rest]
    rfl
  have size : ((s.preamble layout).bytes ++ (floatBytes historic ++ rest)).length = 16 + rest.length := by
    rw [List.length_append, List.length_append, floatBytes, length_leBytes, ← Nat.add_assoc]
    rfl
  have whole : (⟨p, seed, outOfOrder, .registers (array.withHistory historic)⟩ : Sketch Float).image layout =
      overlay buffer ((s.preamble layout).bytes ++ (floatBytes historic ++ rest)) := by
    rw [← written]
    rfl
  rw [whole, overlay, size, List.append_assoc, List.append_assoc]

theorem image_withHistory (s : Sketch Float) (historic : Float) (layout : Layout) :
    ((s.withHistory historic).image layout).take 8 = (s.image layout).take 8 ∧
      ((s.withHistory historic).image layout).drop 16 = (s.image layout).drop 16 := by
  obtain ⟨p, seed, outOfOrder, store⟩ := s
  cases store with
  | list | set => exact ⟨rfl, rfl⟩
  | registers array =>
    obtain ⟨front, tail, size, shape⟩ := image_registers p seed outOfOrder array layout
    have before := shape array.historic
    have after := shape historic
    have skip (x : Float) : (front ++ (floatBytes x ++ tail)).drop 16 = tail := by
      rw [← List.append_assoc]
      exact List.drop_left' (by rw [List.length_append, size, floatBytes, length_leBytes])
    constructor
    · exact (congrArg (List.take 8) after).trans
        ((List.take_left' size).trans ((List.take_left' size).symm.trans
          (congrArg (List.take 8) before.symm)))
    · exact (congrArg (List.drop 16) after).trans
        ((skip historic).trans ((skip array.historic).symm.trans (congrArg (List.drop 16) before.symm)))

def streamed (p : Precision) (width : Width) (seed : Seed) (coupons : List Coupon) : Sketch Float :=
  (Snapshot.take ((empty p width seed).addCoupons coupons)).toSketch

private theorem streamed_spec (p : Precision) (width : Width) (seed : Seed)
    (valued : ∀ c ∈ coupons, 1 ≤ c.value) :
    (streamed p width seed coupons).Holds coupons ∧ (streamed p width seed coupons).precision = p ∧
      (streamed p width seed coupons).width = width ∧
      (streamed p width seed coupons).outOfOrder = false ∧
      (streamed p width seed coupons).store.IsSettled := by
  obtain ⟨holds, width', precision⟩ :=
    holds_addCoupons (holds_empty (α := Float) p width seed) coupons valued
  rw [List.append_nil] at holds
  refine ⟨holds_settled holds, precision, (Store.width_settle holds.store).trans width', ?_,
    Store.isSettled_settle holds.store⟩
  rw [streamed, addCoupons_eq]
  rfl

section

variable {p : Precision} {width : Width} {seed seed' : Seed} {xs ys : List Coupon}

/-- Streams of the same coupons tell the same but for the historic estimate. -/
private theorem knowsLike_streamed (valued : ∀ c ∈ xs, 1 ≤ c.value) (same : ∀ c, c ∈ xs ↔ c ∈ ys)
    (many : CouponList.capacity ≤ xs.dedup.length) (historic : Float) :
    ((streamed p width seed xs).store.withHistory historic).KnowsLike
      ((streamed p width seed' ys).store.withHistory historic) := by
  obtain ⟨⟨left, _⟩, precision, _, _, settled⟩ := streamed_spec p width seed valued
  obtain ⟨⟨right, _⟩, precision', _, _, settled'⟩ :=
    streamed_spec p width seed' (fun c member => valued c ((same c).mpr member))
  rw [precision] at left
  rw [precision'] at right
  exact Store.knowsLike_of_same_coupons left right same many settled settled' historic

private theorem image_streamed (valued : ∀ c ∈ xs, 1 ≤ c.value) (same : ∀ c, c ∈ xs ↔ c ∈ ys)
    (many : CouponList.capacity ≤ xs.dedup.length) (historic : Float) :
    ((streamed p width seed xs).withHistory historic).image .compact =
      ((streamed p width seed' ys).withHistory historic).image .compact := by
  obtain ⟨left, precision, width', order, _⟩ := streamed_spec p width seed valued
  obtain ⟨right, precision', width'', order', _⟩ :=
    streamed_spec p width seed' (fun c member => valued c ((same c).mpr member))
  have known : ((streamed p width seed xs).withHistory historic).Holds xs :=
    ⟨Store.holds_withHistory left.store historic, left.valued⟩
  have known' : ((streamed p width seed' ys).withHistory historic).Holds ys :=
    ⟨Store.holds_withHistory right.store historic, right.valued⟩
  refine image_compact_of_knowsLike known known' (precision.trans precision'.symm) ?_
    (order.trans order'.symm) (knowsLike_streamed valued same many historic)
  exact (Store.width_withHistory _ _).trans
    (width'.trans (width''.symm.trans (Store.width_withHistory _ _).symm))

end

/-- Compact images are canonical. Sketches of one configuration that know the same have the same image,
whatever they went through; and streams of the same coupons, when these are too many for a list, have
images that differ at most in the historic estimate. -/
theorem image_compact_canonical :
    (∀ s t : Sketch Float, s.Reachable → t.Reachable → s.precision = t.precision → s.width = t.width →
      s.outOfOrder = t.outOfOrder → s.store.KnowsLike t.store → s.image .compact = t.image .compact) ∧
    ∀ (p : Precision) (width : Width) (seed seed' : Seed) (xs ys : List Coupon),
      (∀ c ∈ xs, 1 ≤ c.value) → (∀ c, c ∈ xs ↔ c ∈ ys) → CouponList.capacity ≤ xs.dedup.length →
      ((streamed p width seed xs).image .compact).take 8 =
          ((streamed p width seed' ys).image .compact).take 8 ∧
        ((streamed p width seed xs).image .compact).drop 16 =
          ((streamed p width seed' ys).image .compact).drop 16 := by
  constructor
  · intro s t left right precision width order alike
    obtain ⟨coupons, holds⟩ := left.holds
    obtain ⟨others, holds'⟩ := right.holds
    exact image_compact_of_knowsLike holds holds' precision width order alike
  · intro p width seed seed' xs ys valued same many
    obtain ⟨front, tail⟩ := image_withHistory (streamed p width seed xs) 0 .compact
    obtain ⟨front', tail'⟩ := image_withHistory (streamed p width seed' ys) 0 .compact
    have images : ((streamed p width seed xs).withHistory 0).image .compact =
        ((streamed p width seed' ys).withHistory 0).image .compact := image_streamed valued same many 0
    rw [← front, ← front', ← tail, ← tail', images]
    exact ⟨rfl, rfl⟩

/-- Eight coupons and their reverse: in a fine sketch they make the same set, in a coarse one the same
registers. -/
theorem image_compact_canonical_reversed :
    let xs := (List.range 8).map (Coupon.pack · 5)
    let fine : Precision := ⟨8, by decide, by decide⟩
    let coarse : Precision := ⟨4, by decide, by decide⟩
    let s := streamed fine .six .standard xs
    let t := streamed fine .six .standard xs.reverse
    (s.Reachable ∧ t.Reachable ∧ s.store.KnowsLike t.store ∧ s.image .compact = t.image .compact) ∧
      (∀ c ∈ xs, 1 ≤ c.value) ∧ (∀ c, c ∈ xs ↔ c ∈ xs.reverse) ∧
      CouponList.capacity ≤ xs.dedup.length ∧
      ((streamed coarse .four .standard xs).image .compact).drop 16 =
        ((streamed coarse .four .standard xs.reverse).image .compact).drop 16 := by
  intro xs fine coarse s t
  have valued : ∀ c ∈ xs, 1 ≤ c.value := by decide
  have valued' : ∀ c ∈ xs.reverse, 1 ≤ c.value := fun c member => valued c (List.mem_reverse.mp member)
  have same : ∀ c, c ∈ xs ↔ c ∈ xs.reverse := fun c => List.mem_reverse.symm
  have many : CouponList.capacity ≤ xs.dedup.length := by decide
  have reachable : s.Reachable := .settled (.addCoupons (.empty fine .six .standard) valued)
  have reachable' : t.Reachable := .settled (.addCoupons (.empty fine .six .standard) valued')
  obtain ⟨left, precision, width, order, _⟩ := streamed_spec fine .six .standard valued
  obtain ⟨right, precision', width', order', _⟩ := streamed_spec fine .six .standard valued'
  have alike : s.store.KnowsLike t.store := by
    have set : s.store.mode = .set := by
      rw [left.store.represents.mode, precision]
      decide
    have set' : t.store.mode = .set := by
      rw [right.store.represents.mode, precision']
      decide
    have known : (s.store.withHistory 0).KnowsLike (t.store.withHistory 0) :=
      knowsLike_streamed valued same many 0
    rwa [Store.withHistory_of_set set, Store.withHistory_of_set set'] at known
  exact ⟨⟨reachable, reachable', alike, image_compact_canonical.1 s t reachable reachable'
      (precision.trans precision'.symm) (width.trans width'.symm) (order.trans order'.symm) alike⟩,
    valued, same, many,
    (image_compact_canonical.2 coarse .four .standard .standard xs xs.reverse valued same many).2⟩

end Sketch

end DistinctCount
