import DistinctCount.Proofs.FourBit

/-! The tally in force is that of the registers. A single change keeps it up, and what cannot keep it up
marks it as stale; readers scan stale registers once and keep the scan, and a bulk change drops that. Here
the mark and the scan are two fields that no type ties together. -/

namespace DistinctCount

/-- A register array with a mark that its tally is stale and, beside it, a scan that a reader may have
left. -/
structure MarkedArray (α : Type) where
  precision : Precision
  registers : Registers
  tally : Tally α
  historic : α
  stale : Bool
  scanned : Option (Tally α)

namespace MarkedArray

section

variable {α : Type}

/-- The array of which mark and scan are the upkeep. A scan without the mark is lost. -/
def toArray (m : MarkedArray α) : RegisterArray α :=
  ⟨m.precision, m.registers, m.tally, m.historic, if m.stale then .pending m.scanned else .settled⟩

def fresh (a : RegisterArray α) : MarkedArray α :=
  ⟨a.precision, a.registers, a.tally, a.historic, false, none⟩

def ofArray (a : RegisterArray α) : MarkedArray α :=
  { fresh a with
    stale := a.isPending
    scanned := match a.upkeep with
      | .settled => none
      | .pending scanned => scanned }

variable [Scalar α]

def currentTally (m : MarkedArray α) : Tally α :=
  if m.stale then m.scanned.getD m.toArray.scan else m.tally

/-- Reading stale registers leaves a scan behind. -/
def read (m : MarkedArray α) : MarkedArray α :=
  if m.stale then { m with scanned := some m.currentTally } else m

/-- Makes up for a stale tally, and takes the scan away. -/
def rebuild (m : MarkedArray α) : MarkedArray α :=
  if m.stale then
    { m with registers := m.toArray.rebased, tally := m.currentTally, stale := false, scanned := none }
  else m

/-- Raises a register. The mark may be set, and the scan is not looked at. -/
def raise (m : MarkedArray α) (slot old new : Nat) : MarkedArray α :=
  let registers := m.registers.put m.precision m.tally.base slot new
  let tally := m.tally.replace old new
  let atBase := if old = tally.base then tally.atBase - 1 else tally.atBase
  let left := old = tally.base ∧ atBase = 0 ∧ RegisterArray.tracksBase registers.width
  { m with registers := registers, tally := { tally with atBase := atBase }, stale := m.stale || left }

def update (m : MarkedArray α) (c : Coupon) (inOrder : Bool) : MarkedArray α :=
  let m := m.rebuild
  let slot := c.register m.precision.size
  if c.value ≤ m.tally.base then m
  else
    let old := m.toArray.get slot
    if c.value ≤ old then m
    else
      let historic := if inOrder then m.historic + m.toArray.credit else m.historic
      { m with historic := historic }.raise slot old c.value

/-- Takes the maximum of both arrays in each register, marks the tally and drops the scan. -/
def merge (m source : MarkedArray α) : MarkedArray α :=
  { fresh (m.toArray.merge source.toArray) with stale := true }

def copyAs (m : MarkedArray α) (width : Width) : MarkedArray α :=
  if width = m.registers.width ∧ !m.stale then m
  else fresh (.ofValues m.precision width m.toArray.values m.historic)

def folded (m : MarkedArray α) (p : Precision) (width : Width) : MarkedArray α :=
  if p = m.precision then m.copyAs width
  else fresh (.ofValues p width (m.toArray.foldedValues p) (Scalar.ofNat 0))

def promoted (p : Precision) (width : Width) (coupons : List Coupon) (count : Nat) : MarkedArray α :=
  let m := coupons.foldl (fun m c => m.update c false) (fresh (.zeros p width))
  { m with historic := CouponCurve.estimate count }

end

/-- A scan is kept only beside the mark. -/
def Tidy {α : Type} (m : MarkedArray α) : Prop := m.stale = false → m.scanned = none

section

variable {α : Type} {m source : MarkedArray α} {a : RegisterArray α}

theorem tidy_fresh (a : RegisterArray α) : (fresh a).Tidy := fun _ => rfl

theorem toArray_fresh (settled : a.upkeep = .settled) : (fresh a).toArray = a := by
  obtain ⟨p, registers, tally, historic, upkeep⟩ := a
  obtain rfl : upkeep = .settled := settled
  rfl

theorem tidy_ofArray (a : RegisterArray α) : (ofArray a).Tidy := by
  obtain ⟨p, registers, tally, historic, upkeep⟩ := a
  cases upkeep with
  | settled => exact fun _ => rfl
  | pending scanned => exact fun settled => by cases settled

theorem toArray_ofArray (a : RegisterArray α) : (ofArray a).toArray = a := by
  obtain ⟨p, registers, tally, historic, upkeep⟩ := a
  cases upkeep <;> rfl

/-- The mark that a bulk change sets stands beside no scan, whatever was read before. -/
theorem toArray_merge (m source : MarkedArray α) :
    (m.merge source).toArray = m.toArray.merge source.toArray := rfl

theorem tidy_merge (m source : MarkedArray α) : (m.merge source).Tidy := fun _ => rfl

end

section

variable {α : Type} [Scalar α] {m : MarkedArray α}

theorem currentTally_toArray (m : MarkedArray α) : m.toArray.currentTally = m.currentTally := by
  obtain ⟨p, registers, tally, historic, stale, scanned⟩ := m
  cases stale with
  | false => rfl
  | true => cases scanned <;> rfl

theorem toArray_read (m : MarkedArray α) : m.read.toArray = m.toArray.primed := by
  obtain ⟨p, registers, tally, historic, stale, scanned⟩ := m
  cases stale with
  | false => rfl
  | true => cases scanned <;> rfl

theorem tidy_read (tidy : m.Tidy) : m.read.Tidy := by
  intro settled
  unfold read at settled ⊢
  split_ifs at settled ⊢ with stale
  · exact absurd (stale.symm.trans settled) (by simp)
  · exact tidy settled

theorem toArray_rebuild (m : MarkedArray α) : m.rebuild.toArray = m.toArray.settle := by
  obtain ⟨p, registers, tally, historic, stale, scanned⟩ := m
  cases stale with
  | false => rfl
  | true => cases scanned <;> rfl

theorem rebuild_spec (tidy : m.Tidy) : m.rebuild.stale = false ∧ m.rebuild.scanned = none := by
  unfold rebuild
  split_ifs with stale
  · exact ⟨rfl, rfl⟩
  · have settled := Bool.eq_false_of_not_eq_true stale
    exact ⟨settled, tidy settled⟩

/-- A change that sets the mark finds no scan to take for that of the changed registers. -/
private theorem raise_spec (settled : m.stale = false) (none : m.scanned = none) (slot old new : Nat) :
    (m.raise slot old new).toArray = m.toArray.raise slot old new ∧ (m.raise slot old new).Tidy := by
  obtain ⟨p, registers, tally, historic, stale, scanned⟩ := m
  cases settled
  cases none
  refine ⟨?_, fun _ => rfl⟩
  simp only [toArray, raise, RegisterArray.raise, Bool.false_or, decide_eq_true_eq, Bool.false_eq_true,
    if_false]

theorem update_spec (tidy : m.Tidy) (c : Coupon) (inOrder : Bool) :
    (m.update c inOrder).toArray = m.toArray.update c inOrder ∧ (m.update c inOrder).Tidy := by
  obtain ⟨settled, none⟩ := rebuild_spec tidy
  unfold update RegisterArray.update
  rw [← toArray_rebuild]
  generalize m.rebuild = n at settled none
  have kept : n.Tidy := fun _ => none
  simp only [show n.toArray.precision = n.precision from rfl, show n.toArray.tally = n.tally from rfl]
  split_ifs with small held
  · exact ⟨rfl, kept⟩
  · exact ⟨rfl, kept⟩
  · exact raise_spec (m := { n with historic := n.historic + n.toArray.credit }) settled none _ _ _
  · exact raise_spec (m := { n with historic := n.historic }) settled none _ _ _

theorem updateAll_spec (tidy : m.Tidy) (coupons : List Coupon) (inOrder : Bool) :
    (coupons.foldl (fun m c => m.update c inOrder) m).toArray =
        coupons.foldl (fun a c => a.update c inOrder) m.toArray ∧
      (coupons.foldl (fun m c => m.update c inOrder) m).Tidy := by
  induction coupons generalizing m with
  | nil => exact ⟨rfl, tidy⟩
  | cons c rest ih =>
    obtain ⟨same, tidy'⟩ := update_spec tidy c inOrder
    rw [List.foldl_cons, List.foldl_cons, ← same]
    exact ih tidy'

theorem promoted_spec (p : Precision) (width : Width) (coupons : List Coupon) (count : Nat) :
    (promoted p width coupons count : MarkedArray α).toArray = Store.promoted p width coupons count ∧
      (promoted p width coupons count : MarkedArray α).Tidy := by
  obtain ⟨same, tidy⟩ := updateAll_spec (tidy_fresh (.zeros p width : RegisterArray α)) coupons false
  rw [toArray_fresh rfl] at same
  refine ⟨?_, tidy⟩
  rw [Store.promoted, ← same]
  rfl

theorem copyAs_spec (tidy : m.Tidy) (width : Width) :
    (m.copyAs width).toArray = m.toArray.copyAs width ∧ (m.copyAs width).Tidy := by
  have pending : m.toArray.isPending = m.stale := by
    obtain ⟨p, registers, tally, historic, stale, scanned⟩ := m
    cases stale <;> rfl
  unfold copyAs RegisterArray.copyAs
  rw [pending]
  simp only [show m.toArray.width = m.registers.width from rfl]
  split_ifs
  · exact ⟨rfl, tidy⟩
  · exact ⟨rfl, tidy_fresh _⟩

theorem folded_spec (tidy : m.Tidy) (p : Precision) (width : Width) :
    (m.folded p width).toArray = m.toArray.folded p width ∧ (m.folded p width).Tidy := by
  unfold folded RegisterArray.folded
  simp only [show m.toArray.precision = m.precision from rfl]
  split_ifs
  · exact copyAs_spec tidy width
  · exact ⟨rfl, tidy_fresh _⟩

end

/-- An array and its marks, taken through the same changes, readings and reloads of its own images. -/
inductive Follows : RegisterArray Float → MarkedArray Float → Prop
  | zeros (p : Precision) (width : Width) : Follows (.zeros p width) (fresh (.zeros p width))
  | promoted (p : Precision) (width : Width) (coupons : List Coupon) (count : Nat) :
    Follows (Store.promoted p width coupons count) (promoted p width coupons count)
  | update {a : RegisterArray Float} {m : MarkedArray Float} (c : Coupon) (inOrder : Bool) :
    Follows a m → Follows (a.update c inOrder) (m.update c inOrder)
  | merge {a b : RegisterArray Float} {m n : MarkedArray Float} :
    Follows a m → Follows b n → Follows (a.merge b) (m.merge n)
  | copyAs {a : RegisterArray Float} {m : MarkedArray Float} (width : Width) :
    Follows a m → Follows (a.copyAs width) (m.copyAs width)
  | folded {a : RegisterArray Float} {m : MarkedArray Float} (p : Precision) (width : Width) :
    Follows a m → p.lg ≤ a.precision.lg → Follows (a.folded p width) (m.folded p width)
  | read {a : RegisterArray Float} {m : MarkedArray Float} : Follows a m → Follows a.primed m.read
  | settle {a : RegisterArray Float} {m : MarkedArray Float} :
    Follows a m → Follows a.settle m.rebuild
  | reload {a b : RegisterArray Float} {m : MarkedArray Float} {flags : Flags} {rest : List UInt8} :
    Follows a m → flags.pending = a.isPending →
    (RegisterArray.read ⟨a.precision, a.lgTableSize, flags, a.tally.base, .registers, a.width⟩).run
      (a.body flags.layout) = .ok (b, rest) →
    Follows b (ofArray b)

/-- What the tally in force says of the registers, and what the marks say of it. -/
structure Describes (a : RegisterArray Float) (m : MarkedArray Float) : Prop where
  tally : a.currentTally = a.scan ∧ m.currentTally = a.scan
  leastOfFour : a.width = .four → a.values.min? = some a.currentTally.base
  zeroOfOthers : a.width ≠ .four → a.currentTally.base = 0
  atBase : a.currentTally.atBase = a.values.count a.currentTally.base
  low : Binary64.toRat? a.currentTally.low =
    some (((a.values.filter (· < 32)).map (fun value : Nat => (2 : ℚ) ^ (-(value : Int)))).sum)
  high : Binary64.toRat? a.currentTally.high =
    some (((a.values.filter (32 ≤ ·)).map (fun value : Nat => (2 : ℚ) ^ (-(value : Int)))).sum)
  scanned : ∀ kept, m.scanned = some kept → m.stale = true ∧ kept = a.scan
  sum_pos : 0 < a.currentTally.sum
  credit : a.settle.tally = a.currentTally ∧ 0 < a.settle.credit ∧ a.settle.credit.isFinite = true

theorem Follows.exact {a : RegisterArray Float} {m : MarkedArray Float} (follows : Follows a m) :
    a.Exact ∧ m.toArray = a ∧ m.Tidy := by
  induction follows with
  | zeros p width => exact ⟨RegisterArray.exact_zeros p width, toArray_fresh rfl, tidy_fresh _⟩
  | promoted p width coupons count =>
    exact ⟨Store.exact_promoted p width coupons count, promoted_spec p width coupons count⟩
  | update c inOrder _ known =>
    obtain ⟨exact, rfl, tidy⟩ := known
    exact ⟨RegisterArray.exact_update exact c inOrder, update_spec tidy c inOrder⟩
  | merge _ _ known known' =>
    obtain ⟨exact, rfl, _⟩ := known
    obtain ⟨exact', rfl, _⟩ := known'
    exact ⟨RegisterArray.exact_merge exact.toEncoded exact'.toEncoded, toArray_merge _ _, tidy_merge _ _⟩
  | copyAs width _ known =>
    obtain ⟨exact, rfl, tidy⟩ := known
    exact ⟨RegisterArray.exact_copyAs exact width, copyAs_spec tidy width⟩
  | folded p width _ coarser known =>
    obtain ⟨exact, rfl, tidy⟩ := known
    exact ⟨RegisterArray.exact_folded exact width coarser, folded_spec tidy p width⟩
  | read _ known =>
    obtain ⟨exact, rfl, tidy⟩ := known
    exact ⟨RegisterArray.exact_primed exact, toArray_read _, tidy_read tidy⟩
  | settle _ known =>
    obtain ⟨exact, rfl, tidy⟩ := known
    exact ⟨RegisterArray.exact_settle exact, toArray_rebuild _, fun _ => (rebuild_spec tidy).2⟩
  | reload _ pending loaded known =>
    obtain ⟨again, reads, exact, _, _⟩ := RegisterArray.reads_read known.1 _ pending
    have whole := reads []
    rw [List.append_nil, loaded] at whole
    cases whole
    exact ⟨exact, toArray_ofArray _, tidy_ofArray _⟩

theorem Follows.updateAll {a : RegisterArray Float} {m : MarkedArray Float} (follows : Follows a m)
    (coupons : List Coupon) (inOrder : Bool) :
    Follows (coupons.foldl (fun a c => a.update c inOrder) a)
      (coupons.foldl (fun m c => m.update c inOrder) m) := by
  induction coupons generalizing a m with
  | nil => exact follows
  | cons c rest ih => exact ih (follows.update c inOrder)

/-- Whatever an array went through, and whenever it was read, its tally is that of its registers, without
rounding and with a positive sum, and a scan that is kept is one of stale registers as they are. -/
theorem describes_of_follows {a : RegisterArray Float} {m : MarkedArray Float} (follows : Follows a m) :
    m.toArray = a ∧ Describes a m := by
  obtain ⟨exact, rfl, tidy⟩ := follows.exact
  generalize array : m.toArray = a at exact
  have current := exact.currentTally
  have fits := RegisterArray.fits_values exact.toEncoded
  obtain ⟨sound, settled, _, tally, _⟩ := RegisterArray.settle_spec exact.toSound
  refine ⟨rfl, ⟨current, ?_⟩, ?_, ?_, ?_, ?_, ?_, ?_, ?_, tally, ?_⟩
  · rw [← currentTally_toArray, array, current]
  · intro four
    obtain ⟨least, found⟩ := Option.isSome_iff_exists.mp (List.isSome_min?_of_ne_nil a.values_ne_nil)
    rw [current, found, RegisterArray.scan, Tally.scan, (RegisterArray.tracksBase_iff a.width).mpr four,
      if_pos rfl, found, Option.getD_some]
  · intro other
    rw [current]
    exact a.scan_base_spec.2.2 other
  · rw [current]
    rfl
  · rw [current]
    exact Binary64.toRat?_part_scan fits (RegisterArray.tracksBase a.width) false
  · rw [current]
    exact Binary64.toRat?_part_scan fits (RegisterArray.tracksBase a.width) true
  · intro kept left
    have stale : m.stale = true := by
      by_contra fresh
      rw [tidy (Bool.eq_false_of_not_eq_true fresh)] at left
      cases left
    refine ⟨stale, exact.scanned kept ?_⟩
    rw [← array, toArray, if_pos stale, left]
  · rw [current]
    exact (RegisterArray.moderate_sum exact.toEncoded).pos
  · have moderate := RegisterArray.moderate_credit sound.toEncoded
      ((RegisterArray.exact_settle exact).exact settled)
    exact ⟨moderate.pos, moderate.isFinite⟩

/-- Sixteen registers leave the base zero one by one, and are merged with themselves after they were
read. -/
theorem describes_after_merge :
    let p : Precision := ⟨4, by decide, by decide⟩
    let coupons := (List.range 16).map (Coupon.pack · 3)
    let a : RegisterArray Float := coupons.foldl (fun a c => a.update c true) (.zeros p .four)
    let m : MarkedArray Float := coupons.foldl (fun m c => m.update c true) (fresh (.zeros p .four))
    Follows (a.primed.merge a) (m.read.merge m) ∧ Describes (a.primed.merge a) (m.read.merge m) := by
  intro p coupons a m
  have start : Follows (.zeros p .four) (fresh (.zeros p .four)) := .zeros p .four
  have follows : Follows a m := start.updateAll coupons true
  have merged := follows.read.merge follows
  exact ⟨merged, (describes_of_follows merged).2⟩

end MarkedArray

end DistinctCount
