import DistinctCount.Proofs.AcceptedCoupons
import DistinctCount.Proofs.GuardedReader
import DistinctCount.Proofs.Scanning

/-! Reading an image never stops. The readers are repeated with a guard at each index, each sum, difference,
product and shift, each probe and the one loop without a bound; what is checked before a step makes it pass.
The shifts that take a coupon apart are by constants, and are left as they are. -/

namespace DistinctCount

open Guarded (Follows plain attempt follows_plain follows_pure follows_throw follows_attempt)

namespace Preamble

def read? : Guarded Preamble := do
  let fields := (← plain (Reader.bytes 8 .preamble)).map UInt8.toNat
  let field (i : Nat) : Nat := fields.getD i 0
  plain (Reader.refuseIf (field 2 ≠ family) (.wrongFamily (field 2)))
  plain (Reader.refuseIf (field 1 ≠ version) (.wrongVersion (field 1)))
  let some precision := Precision.ofNat? (field 3) | throw (.wrongPrecision (field 3))
  plain (Reader.refuseIf ((field 5).testBit Flags.bigEndianBit) .bigEndian)
  let some mode := Mode.ofCode? (field 7 % 4) | throw (.unknownMode (field 7 % 4))
  let upper ← attempt (Word.shr 8 (field 7) 2)
  let some width := Width.ofCode? upper | throw (.unknownWidth upper)
  plain (Reader.refuseIf (field 0 ≠ words mode) (.wrongPreambleWords (words mode) (field 0)))
  return ⟨precision, field 4, .ofByte (field 5), field 6, mode, width⟩

theorem follows_read : Follows read? read fun _ => True := by
  refine (follows_plain _).bind (fun bytes _ => .unless (fun _ => .unless (fun _ => ?_)))
  cases Precision.ofNat? ((bytes.map UInt8.toNat).getD 3 0) with
  | none => exact follows_throw _ _
  | some precision =>
    refine .unless (fun _ => ?_)
    cases Mode.ofCode? ((bytes.map UInt8.toNat).getD 7 0 % 4) with
    | none => exact follows_throw _ _
    | some mode =>
      refine .attempt (Word.shr_eq (by decide)) ?_
      cases Width.ofCode? ((bytes.map UInt8.toNat).getD 7 0 / 2 ^ 2) with
      | none => exact follows_throw _ _
      | some width => exact .unless (fun _ => follows_pure trivial)

end Preamble

namespace Reader

variable {count : Nat} {part : ImagePart}

def coupons? (count : Nat) (part : ImagePart) : Guarded (List Coupon) := do
  let _length ← attempt (Word.mul Word.index 4 count)
  plain (Reader.coupons count part)

theorem follows_coupons (few : count ≤ 2 ^ 22) :
    Follows (coupons? count part) (coupons count part) fun coupons => coupons.length = count := by
  refine .attempt (Word.mul_eq (by rw [Word.index]; omega)) ((follows_plain _).weaken ?_)
  rintro coupons ⟨bytes, rest, given⟩
  rw [given.coupons.1, List.length_map, List.length_range]

end Reader

namespace CouponList

variable {coupons : List Coupon}

def insert? (l : CouponList) (c : Coupon) : Option CouponList := do
  let _count ← Word.add 32 l.count 1
  return l.insert c

def read? (coupons : List Coupon) : Guarded CouponList :=
  coupons.zipIdx.foldlM (fun list (c, index) => do
    plain (Reader.refuseIf (c = Coupon.empty) (.emptyCoupon .list index))
    plain (Reader.refuseIf (list.contains c) (.repeatedCoupon .list index))
    attempt (list.insert? c)) empty

theorem follows_read (short : coupons.length < capacity) :
    Follows (read? coupons) (read coupons) fun _ => True := by
  have few : capacity < 2 ^ 32 := by decide
  let Inv (list : CouponList) (left : List Coupon) : Prop := list.count + left.length = coupons.length
  have start : Inv empty coupons := Nat.zero_add _
  refine (Follows.foldlM Inv (fun list c index left held => ?_) start).weaken (fun _ _ => trivial)
  refine .unless (fun _ => .unless (fun fresh => ?_))
  simp only [Inv, List.length_cons] at held
  have count : Word.add 32 list.count 1 = some (list.count + 1) := Word.add_eq (by omega)
  refine follows_attempt (by rw [insert?, count]; rfl) ?_
  have added : (list.insert c).count = list.count + 1 := by
    rw [insert, if_neg (by simp [fresh])]
    simp [CouponList.count]
  simp only [Inv, added]
  omega

end CouponList

namespace CouponSet

variable {coupons : List Coupon} {lgSize : Nat}

def read? (lgSize : Nat) (coupons : List Coupon) : Guarded CouponSet := do
  let _size ← attempt (Word.shl Word.index 1 lgSize)
  coupons.zipIdx.foldlM (fun set (c, index) => do
    plain (Reader.refuseIf (c = Coupon.empty) (.emptyCoupon .set index))
    let repeated ← attempt (set.contains? c)
    plain (Reader.refuseIf repeated (.repeatedCoupon .set index))
    attempt (set.insert? c)) (empty lgSize)

theorem follows_read (small : lgSize ≤ 22) (room : coupons.length < 2 ^ lgSize) :
    Follows (read? lgSize coupons) (read lgSize coupons) fun _ => True := by
  have most : 2 ^ lgSize ≤ 2 ^ 22 := Nat.pow_le_pow_right Nat.two_pos small
  let Inv (set : CouponSet) (left : List Coupon) : Prop :=
    set.table.Keyed keying ∧ set.table.lgSize = lgSize ∧ set.count + left.length = coupons.length
  have start : Inv (empty lgSize) coupons := ⟨CouponTable.keyed_empty _ _, rfl, Nat.zero_add _⟩
  refine .attempt (Word.shl_one (by rw [Word.index]; omega)) ?_
  refine (Follows.foldlM Inv (fun set c index left held => ?_) start).weaken (fun _ _ => trivial)
  obtain ⟨keyed, size, held⟩ := held
  rw [List.length_cons] at held
  have free : set.count < set.table.size := by
    rw [CouponTable.size, size]
    omega
  have searchable : set.table.Searchable := keyed.searchable free (by rwa [size])
  refine .unless (fun used => .attempt (contains?_eq searchable c) (.unless (fun fresh => ?_)))
  refine follows_attempt (insert?_eq searchable (by omega) c) ?_
  have absent : c ∉ set.coupons := by
    rw [← contains_iff keyed free, fresh]
    exact Bool.false_ne_true
  obtain ⟨keyed', added, size'⟩ := insert_of_not_mem keyed free (of_decide_eq_false used) absent
  have count := added.length_eq
  rw [List.length_cons, ← count_eq keyed, ← count_eq keyed'] at count
  exact ⟨keyed', size'.trans size, by omega⟩

end CouponSet

namespace Exceptions

variable {p : Precision} {entries : List Coupon} {exceptions : Option Exceptions} {cells : Nibbles}
  {lgSize base count : Nat}

def read? (p : Precision) (entries : List Coupon) : Guarded Exceptions := do
  let start ← attempt (empty? p)
  entries.zipIdx.foldlM (fun exceptions (entry, index) => do
    let size ← attempt (Word.shl 32 1 p.lg)
    plain (Reader.refuseIf (size ≤ entry.slot) (.exceptionOutOfRange index entry.slot))
    let bound ← attempt (exceptions.value? entry.slot)
    plain (Reader.refuseIf bound.isSome (.repeatedException entry.slot))
    attempt (exceptions.insert? entry.slot entry.value)) start

def readCompact? (p : Precision) (count : Nat) : Guarded (Option Exceptions) := do
  if count = 0 then return none
  let size ← attempt (Word.shl 32 1 p.lg)
  plain (Reader.refuseIf (size < count) (.tooManyExceptions count size))
  let entries ← Reader.coupons? count .exceptionEntries
  return some (← read? p entries)

def readUpdatable? (p : Precision) (lgSize count : Nat) : Guarded (Option Exceptions) := do
  let largest ← attempt (Word.add 8 p.lg 1)
  plain (Reader.refuseIf (largest < lgSize) (.exceptionTableSize lgSize p.lg))
  let size ← attempt (Word.shl Word.index 1 lgSize)
  let entries ← Reader.coupons? size .exceptionTable
  if count = 0 ∧ entries.all (· = Coupon.empty) then return none
  let some exceptions ← attempt (adopt? p (.ofEntries lgSize entries.toArray))
    | throw .exceptionTableCorrupt
  plain (Reader.refuseIf (exceptions.count ≠ count) (.exceptionCountMismatch exceptions.count count))
  return some exceptions

def bindingsOf? : Option Exceptions → Option (List (Nat × Nat))
  | some exceptions => exceptions.bindings?
  | none => some []

def checkAgainst? (exceptions : Option Exceptions) (p : Precision) (cells : Nibbles)
    (base count : Nat) : Guarded Unit := do
  let tokens ← attempt (tokens? p cells)
  plain (Reader.refuseIf (tokens ≠ count) (.tokenCountMismatch tokens count))
  let bindings ← attempt (bindingsOf? exceptions)
  let inline ← attempt (bindings.findM? fun (slot, _) => return decide ((← cells.get? slot) ≠ Registers.token))
  if let some (slot, _) := inline then throw (.exceptionWithoutToken slot)
  let least ← attempt (Word.add 8 base Registers.token)
  if let some (slot, value) :=
      bindings.find? fun (_, value) => value < least || Coupon.maxValue < value then
    throw (.exceptionValue slot value least)

/-- Exceptions that can be searched, of registers of the precision. -/
def Ready (p : Precision) (exceptions : Option Exceptions) : Prop :=
  ∀ e ∈ exceptions, e.precision = p ∧ e.table.Searchable

theorem follows_read (few : entries.length ≤ p.size) :
    Follows (read? p entries) (read p entries) fun e => e.Filling p entries.length := by
  let Inv (e : Exceptions) (left : List Coupon) : Prop :=
    ∃ done, e.Filling p done ∧ done + left.length = entries.length
  have start : Inv (empty p) entries := ⟨0, filling_empty p, Nat.zero_add _⟩
  refine .attempt (empty?_eq p) ((Follows.foldlM Inv (fun e entry index left held => ?_) start).weaken ?_)
  · obtain ⟨done, filling, held⟩ := held
    rw [List.length_cons] at held
    refine .attempt (Word.shl_lg p) (.unless (fun below => ?_))
    have inside : entry.slot < p.size := Nat.lt_of_not_le (of_decide_eq_false below)
    have found := value?_eq (filling.searchable (by omega)) (filling.precision ▸ inside)
    refine .attempt found (.unless (fun fresh => ?_))
    obtain ⟨inserted, filling'⟩ := insert?_spec filling (by omega) inside entry.value fresh
    exact follows_attempt inserted ⟨done + 1, filling', by omega⟩
  · rintro e ⟨done, filling, all⟩
    exact all ▸ filling

theorem follows_readCompact : Follows (readCompact? p count) (readCompact p count) (Ready p) := by
  unfold readCompact? readCompact
  split_ifs
  · exact follows_pure (fun e member => by cases member)
  · refine .attempt (Word.shl_lg p) (.unless (fun few => ?_))
    have few : count ≤ p.size := Nat.le_of_not_lt (of_decide_eq_false few)
    have most := p.size_le
    refine (Reader.follows_coupons (by omega)).bind (fun entries sized => ?_)
    refine (follows_read (sized ▸ few)).bind (fun e filling => follows_pure (fun _ member => ?_))
    cases member
    exact ⟨filling.precision, filling.searchable (sized ▸ few)⟩

theorem follows_readUpdatable :
    Follows (readUpdatable? p lgSize count) (readUpdatable p lgSize count) (Ready p) := by
  have fine := p.le_twentyOne
  unfold readUpdatable? readUpdatable
  refine .attempt (Word.add_eq (by omega)) (.unless (fun fits => ?_))
  have small : lgSize ≤ 22 := Nat.le_trans (Nat.le_of_not_lt (of_decide_eq_false fits)) (Nat.succ_le_succ fine)
  refine .attempt (Word.shl_one (by rw [Word.index]; omega)) ?_
  have most : 2 ^ lgSize ≤ 2 ^ 22 := Nat.pow_le_pow_right Nat.two_pos small
  refine (Reader.follows_coupons most).bind (fun entries sized => ?_)
  split_ifs
  · exact follows_pure (fun e member => by cases member)
  · refine .attempt (adopt?_eq small sized) ?_
    cases adopted : ofTable? p (.ofEntries lgSize entries.toArray) with
    | none => exact follows_throw _ _
    | some e =>
      refine .unless (fun _ => follows_pure (fun _ member => ?_))
      cases member
      exact searchable_of_ofTable? small sized adopted

theorem follows_checkAgainst (sized : cells.bytes.size = Nibbles.byteCount p.size) (ready : Ready p exceptions)
    (small : base ≤ Coupon.maxValue) :
    Follows (checkAgainst? exceptions p cells base count) (checkAgainst exceptions p cells base count)
      fun _ => True := by
  have bindings : bindingsOf? exceptions = some (bindingsOf exceptions) := by
    cases exceptions with
    | none => rfl
    | some e => exact bindings?_eq e
  have inside : ∀ binding ∈ bindingsOf exceptions, binding.1 < p.size := by
    intro binding member
    cases exceptions with
    | none => cases member
    | some e => exact (ready e rfl).1 ▸ slot_lt_of_mem e member
  have inline : (bindingsOf exceptions).findM?
      (fun (slot, _) => return decide ((← cells.get? slot) ≠ Registers.token)) =
      some ((bindingsOf exceptions).find? fun (slot, _) => cells.get slot ≠ Registers.token) := by
    refine findM?_of_forall (fun binding member => ?_)
    dsimp only
    rw [Nibbles.get?_eq sized p.size_mod_four (inside binding member)]
    rfl
  have least : Word.add 8 base Registers.token = some (base + Registers.token) :=
    Word.add_eq (by rw [Coupon.maxValue] at small; rw [Registers.token]; omega)
  refine .attempt (tokens?_eq sized) (.unless (fun _ => .attempt bindings (.attempt inline ?_)))
  dsimp only
  cases (bindingsOf exceptions).find? fun (slot, _) => cells.get slot ≠ Registers.token with
  | some binding => exact follows_throw _ _
  | none =>
    refine .attempt least ?_
    dsimp only
    cases (bindingsOf exceptions).find? fun (_, value) =>
        value < base + Registers.token || Coupon.maxValue < value with
    | some binding => exact follows_throw _ _
    | none => exact follows_pure trivial

end Exceptions

namespace Registers

variable {preamble : Preamble} {count : Nat}

def read? (preamble : Preamble) (exceptionCount : Nat) : Guarded Registers := do
  let p := preamble.precision
  let length ← attempt (byteCount? preamble.width p)
  let bytes := (← plain (Reader.bytes length .registers)).toArray
  match preamble.width with
  | .four =>
    let exceptions ←
      match preamble.flags.layout with
      | .compact => Exceptions.readCompact? p exceptionCount
      | .updatable => Exceptions.readUpdatable? p preamble.lgSize exceptionCount
    Exceptions.checkAgainst? exceptions p ⟨bytes⟩ preamble.count exceptionCount
    return .four ⟨bytes⟩ exceptions
  | .six => return .six ⟨bytes⟩
  | .eight => return .eight ⟨bytes⟩

theorem follows_read (small : preamble.count ≤ Coupon.maxValue) :
    Follows (read? preamble count) (read preamble count) (Scannable preamble.precision) := by
  refine .attempt (byteCount?_eq _ _) ((follows_plain _).bind ?_)
  rintro bytes ⟨before, rest, given⟩
  obtain ⟨enough, rfl, _⟩ := given.taken
  have sized : (before.take (byteCount preamble.width preamble.precision.size)).length =
      byteCount preamble.width preamble.precision.size := List.length_take_of_le enough
  cases width : preamble.width with
  | four =>
    rw [width] at sized
    dsimp only
    cases preamble.flags.layout with
    | compact =>
      refine Exceptions.follows_readCompact.bind (fun exceptions ready => ?_)
      exact (Exceptions.follows_checkAgainst sized ready small).bind (fun _ _ => follows_pure ⟨sized, ready⟩)
    | updatable =>
      refine Exceptions.follows_readUpdatable.bind (fun exceptions ready => ?_)
      exact (Exceptions.follows_checkAgainst sized ready small).bind (fun _ _ => follows_pure ⟨sized, ready⟩)
  | six | eight =>
    rw [width] at sized
    exact follows_pure ⟨sized, fun e member => by cases member⟩

end Registers

namespace RegisterArray

variable {preamble : Preamble} {a : RegisterArray Float} {pending : Bool}

def accept? (a : RegisterArray Float) (pending : Bool) : Guarded (RegisterArray Float) := do
  let values ← attempt a.values?
  if let some value := values.find? (Coupon.maxValue < ·) then
    throw (.registerTooLarge value)
  let scanned ← attempt (Tally.scan? (tracksBase a.width) values)
  if pending then return { a with upkeep := .pending (some scanned) }
  plain (Reader.refuseIf (!a.tally.sameBase scanned)
    (.tallyBase a.tally.base a.tally.atBase scanned.base scanned.atBase))
  plain (Reader.refuseIf (!a.tally.sameSum scanned) (.tallySum a.tally.low a.tally.high))
  return a

def read? (preamble : Preamble) : Guarded (RegisterArray Float) := do
  let p := preamble.precision
  let width := preamble.width
  let base := preamble.count
  let size ← attempt (Word.shl 32 1 p.lg)
  let historic ← plain (Reader.float .historic)
  let low ← plain (Reader.float .lowSum)
  let high ← plain (Reader.float .highSum)
  let atBase ← plain (Reader.number 4 .atBase)
  let exceptionCount ← plain (Reader.number 4 .exceptionCount)
  plain (Reader.refuseIf (Coupon.maxValue < base) (.baseTooLarge base))
  plain (Reader.refuseIf (width ≠ .four ∧ base ≠ 0) (.baseOfWidth width base))
  plain (Reader.refuseIf (size < atBase) (.atBaseTooLarge atBase size))
  plain (Reader.refuseIf (width ≠ .four ∧ exceptionCount ≠ 0) (.exceptionsOfWidth width exceptionCount))
  let registers ← Registers.read? preamble exceptionCount
  accept? ⟨p, registers, ⟨base, atBase, low, high⟩, historic, .settled⟩ preamble.flags.pending

theorem follows_accept (scannable : a.registers.Scannable a.precision) (small : a.tally.base ≤ Coupon.maxValue) :
    Follows (accept? a pending) (accept a pending) fun _ => True := by
  refine .attempt (values?_eq scannable small) ?_
  unfold accept
  dsimp only
  cases found : a.values.find? (Coupon.maxValue < ·) with
  | some value => exact follows_throw _ _
  | none =>
    have fits : ∀ value ∈ a.values, value < Tally.unseen := by
      intro value member
      have most : ¬ Coupon.maxValue < value := by simpa using List.find?_eq_none.mp found value member
      exact Nat.lt_of_le_of_lt (Nat.le_of_not_lt most) (by decide)
    have few : a.values.length ≤ 2 ^ 31 := by
      rw [length_values]
      exact Nat.le_trans a.precision.size_le (by decide)
    refine .attempt (Tally.scan?_eq _ fits few) ?_
    dsimp only
    split_ifs
    · exact follows_pure trivial
    · exact .unless (fun _ => .unless (fun _ => follows_pure trivial))

theorem follows_read : Follows (read? preamble) (read preamble) fun _ => True := by
  unfold read readParts
  simp only [bind_assoc, pure_bind]
  refine .attempt (Word.shl_lg _) ?_
  refine (follows_plain _).bind (fun historic _ => (follows_plain _).bind (fun low _ => ?_))
  refine (follows_plain _).bind (fun high _ => (follows_plain _).bind (fun atBase _ => ?_))
  refine (follows_plain _).bind (fun exceptionCount _ => .unless (fun small => ?_))
  have small : preamble.count ≤ Coupon.maxValue := Nat.le_of_not_lt (of_decide_eq_false small)
  refine .unless (fun _ => .unless (fun _ => .unless (fun _ => ?_)))
  exact (Registers.follows_read small).bind (fun registers scannable => follows_accept scannable small)

end RegisterArray

namespace Store

variable {preamble : Preamble} {count : Nat}

def readList? (preamble : Preamble) : Guarded (Store Float) := do
  let count := preamble.count
  let capacity ← attempt (Word.shl Word.index 1 CouponList.lgCapacity)
  plain (Reader.refuseIf (capacity ≤ count) (.listCount count))
  plain (Reader.refuseIf (preamble.flags.empty ∧ count ≠ 0) (.emptyFlagWithCoupons count))
  let coupons ←
    match preamble.flags.layout with
    | .compact => Reader.coupons? count .listCoupons
    | .updatable => do
      plain (Reader.refuseIf (preamble.lgSize ≠ CouponList.lgCapacity) (.listTableSize preamble.lgSize))
      let table ← Reader.coupons? capacity .listCoupons
      let behind ← attempt (sliceFrom? table count)
      plain (Reader.refuseIf (behind.any (· ≠ Coupon.empty)) .couponsPastCount)
      attempt (sliceTo? table count)
  let coupons ← attempt (sliceTo? coupons count)
  return .list (← CouponList.read? coupons) preamble.width

def lgMaxSetSize? (p : Precision) : Option Nat := Nat.psub p.lg lgSetMargin

def compactLgSize? (preamble : Preamble) (largest count : Nat) : Option Nat := do
  let least ← CouponSet.lgSizeFrom? count 64 CouponSet.lgMinSize
  return if least ≤ preamble.lgSize ∧ preamble.lgSize ≤ largest then preamble.lgSize else least

def readCompactSet? (preamble : Preamble) (largest count : Nat) : Guarded CouponSet := do
  let lgSize ← attempt (compactLgSize? preamble largest count)
  plain (Reader.refuseIf (largest < lgSize) (.setCapacity count preamble.precision.lg))
  CouponSet.read? lgSize (← Reader.coupons? count .setCoupons)

def readUpdatableSet? (preamble : Preamble) (largest count : Nat) : Guarded CouponSet := do
  let lgSize := preamble.lgSize
  plain (Reader.refuseIf (lgSize < CouponSet.lgMinSize ∨ largest < lgSize) (.setTableSize lgSize largest))
  let size ← attempt (Word.shl Word.index 1 lgSize)
  let entries ← Reader.coupons? size .setCoupons
  let set : CouponSet := ⟨.ofEntries lgSize entries.toArray⟩
  plain (Reader.refuseIf (set.count ≠ count) (.setCountMismatch set.count count))
  let overloaded ← attempt set.isOverloaded?
  plain (Reader.refuseIf overloaded .setOverloaded)
  let reachable ← attempt (set.coupons.allM set.contains?)
  plain (Reader.refuseIf (!reachable) .setUnreachable)
  return set

def readSet? (preamble : Preamble) : Guarded (Store Float) := do
  plain (Reader.refuseIf (preamble.precision.lg < lgMinForSet) (.setPrecision preamble.precision.lg))
  let largest ← attempt (lgMaxSetSize? preamble.precision)
  let count ← plain (Reader.number 4 .setCount)
  let set ←
    match preamble.flags.layout with
    | .compact => readCompactSet? preamble largest count
    | .updatable => readUpdatableSet? preamble largest count
  return .set set preamble.width

def read? (preamble : Preamble) : Guarded (Store Float) := do
  plain (Reader.refuseIf (preamble.flags.empty ∧ preamble.mode ≠ .list) (.emptyFlagInMode preamble.mode))
  match preamble.mode with
  | .list => readList? preamble
  | .set => readSet? preamble
  | .registers => return .registers (← RegisterArray.read? preamble)

private theorem follows_listed {coupons : List Coupon} (width : Width) (sized : coupons.length = count)
    (short : count < CouponList.capacity) :
    Follows (do
        let coupons ← attempt (sliceTo? coupons count)
        return .list (← CouponList.read? coupons) width)
      (do return .list (← CouponList.read coupons) width : Reader (Store Float)) fun _ => True := by
  have all : sliceTo? coupons count = some coupons := by
    rw [sliceTo?, if_pos (Nat.le_of_eq sized.symm), List.take_of_length_le (Nat.le_of_eq sized)]
  exact .attempt all ((CouponList.follows_read (sized ▸ short)).bind (fun _ _ => follows_pure trivial))

theorem follows_readList : Follows (readList? preamble) (readList preamble) fun _ => True := by
  have capacity : Word.shl Word.index 1 CouponList.lgCapacity = some CouponList.capacity := Word.shl_one (by decide)
  refine .attempt capacity (.unless (fun short => .unless (fun _ => ?_)))
  have short : preamble.count < CouponList.capacity := Nat.lt_of_not_le (of_decide_eq_false short)
  have few : CouponList.capacity ≤ 2 ^ 22 := by decide
  cases preamble.flags.layout with
  | compact =>
    refine (Reader.follows_coupons (Nat.le_trans (Nat.le_of_lt short) few)).bind (fun coupons sized => ?_)
    exact follows_listed preamble.width sized short
  | updatable =>
    refine .unless (fun _ => (Reader.follows_coupons few).bind (fun table sized => ?_))
    have inside : preamble.count ≤ table.length := sized ▸ Nat.le_of_lt short
    refine .attempt (if_pos inside) (.unless (fun _ => .attempt (if_pos inside) ?_))
    exact follows_listed preamble.width (List.length_take_of_le inside) short

theorem compactLgSize?_eq (few : count < 2 ^ 32) :
    compactLgSize? preamble (lgMaxSetSize preamble.precision) count = some (compactLgSize preamble count) := by
  have enough : CouponSet.lgSizeFor count < CouponSet.lgMinSize + 64 :=
    Nat.lt_of_le_of_lt (CouponSet.lgSizeFor_le few) (by decide)
  rw [compactLgSize?, CouponSet.lgSizeFrom?_eq few (Nat.le_refl _) (Nat.le_max_left _ _) enough]
  rfl

theorem follows_readCompactSet (few : count < 2 ^ 32) :
    Follows (readCompactSet? preamble (lgMaxSetSize preamble.precision) count) (readCompactSet preamble count)
      fun _ => True := by
  refine .attempt (compactLgSize?_eq few) (.unless (fun fits => ?_))
  have fine := preamble.precision.le_twentyOne
  have small : compactLgSize preamble count ≤ 22 := by
    have most := Nat.le_of_not_lt (of_decide_eq_false fits)
    rw [lgMaxSetSize] at most
    omega
  obtain ⟨_, load, _⟩ := compactLgSize_spec preamble count
  rw [CouponTable.overloads_eq_false_iff] at load
  have most : 2 ^ compactLgSize preamble count ≤ 2 ^ 22 := Nat.pow_le_pow_right Nat.two_pos small
  have positive := Nat.two_pow_pos (compactLgSize preamble count)
  refine (Reader.follows_coupons (by omega)).bind (fun coupons sized => ?_)
  exact CouponSet.follows_read small (by omega)

theorem follows_readUpdatableSet :
    Follows (readUpdatableSet? preamble (lgMaxSetSize preamble.precision) count) (readUpdatableSet preamble count)
      fun _ => True := by
  refine .unless (fun fits => ?_)
  have fine := preamble.precision.le_twentyOne
  have small : preamble.lgSize ≤ 22 := by
    have most := Nat.le_of_not_lt (not_or.mp (of_decide_eq_false fits)).2
    rw [lgMaxSetSize] at most
    omega
  refine .attempt (Word.shl_one (by rw [Word.index]; omega)) ?_
  have most : 2 ^ preamble.lgSize ≤ 2 ^ 22 := Nat.pow_le_pow_right Nat.two_pos small
  refine (Reader.follows_coupons most).bind (fun entries sized => .unless (fun _ => ?_))
  let set : CouponSet := ⟨.ofEntries preamble.lgSize entries.toArray⟩
  have few : set.count ≤ set.table.size := CouponTable.count_ofEntries_le sized
  refine .attempt (CouponSet.isOverloaded?_eq sized small few) (.unless (fun load => ?_))
  have searchable : set.table.Searchable :=
    CouponTable.searchable_ofEntries small sized (Nat.ne_of_lt (CouponTable.room_of_load load))
  have found : set.coupons.allM set.contains? = some (set.coupons.all set.contains) :=
    allM_of_forall (fun c _ => CouponSet.contains?_eq searchable c)
  exact .attempt found (.unless (fun _ => follows_pure trivial))

theorem follows_readSet : Follows (readSet? preamble) (readSet preamble) fun _ => True := by
  refine .unless (fun fine => ?_)
  have fine : lgMinForSet ≤ preamble.precision.lg := Nat.le_of_not_lt (of_decide_eq_false fine)
  refine .attempt (Nat.psub_eq_sub (Nat.le_trans (by decide) fine)) ((follows_plain _).bind ?_)
  rintro count ⟨bytes, rest, given⟩
  have few : count < 2 ^ 32 := by
    rw [given.number.1]
    exact Nat.lt_of_lt_of_le (ofLeBytes_lt _)
      (Nat.pow_le_pow_right (by decide) (List.length_take_le 4 bytes))
  cases preamble.flags.layout with
  | compact => exact (follows_readCompactSet few).bind (fun _ _ => follows_pure trivial)
  | updatable => exact follows_readUpdatableSet.bind (fun _ _ => follows_pure trivial)

theorem follows_read : Follows (read? preamble) (read preamble) fun _ => True := by
  refine .unless (fun _ => ?_)
  cases preamble.mode with
  | list => exact follows_readList
  | set => exact follows_readSet
  | registers => exact RegisterArray.follows_read.bind (fun array _ => follows_pure trivial)

end Store

namespace Sketch

def read? (seed : Seed) : Guarded (Sketch Float) := do
  let preamble ← Preamble.read?
  let store ← Store.read? preamble
  return ⟨preamble.precision, seed, preamble.flags.outOfOrder, store⟩

/-- The sketch of an image or a fault, unless reading it stops. -/
def ofImage? (seed : UInt32) (bytes : List UInt8) : ExceptT Fault Option (Sketch Float) := do
  let seed ← ExceptT.mk (some (Seed.check seed))
  ExceptT.mk (((read? seed).run' bytes).run.map (·.mapError .image))

theorem follows_read (seed : Seed) : Follows (read? seed) (read seed) fun _ => True :=
  Preamble.follows_read.bind (fun _ _ => Store.follows_read.bind (fun _ _ => follows_pure trivial))

/-- Any bytes at all are read to an end, which is a sketch or a fault of the data. -/
theorem ofImage_total (seed : UInt32) (usable : seedFingerprint seed ≠ 0) (bytes : List UInt8) :
    (ofImage? seed bytes).run = some (ofImage seed bytes) ∧
      ((∃ t, ofImage seed bytes = .ok t) ∨
        ∃ fault, ofImage seed bytes = .error fault ∧ fault.kind = .invalidData) := by
  have known : Seed.check seed = .ok ⟨seed, usable⟩ := Seed.check_value ⟨seed, usable⟩
  have whole : ofImage seed bytes = ((read ⟨seed, usable⟩).run' bytes).mapError .image := by
    rw [ofImage, known]
    rfl
  constructor
  · have run := (follows_read ⟨seed, usable⟩).run bytes
    have opened : (ofImage? seed bytes).run =
        ((read? ⟨seed, usable⟩).run' bytes).run.map (·.mapError .image) := by
      rw [ofImage?, known]
      rfl
    rw [opened, whole, StateT.run'_eq, StateT.run'_eq, ExceptT.run_map, run]
    rfl
  · rw [whole]
    cases (read ⟨seed, usable⟩).run' bytes with
    | ok t => exact .inl ⟨t, rfl⟩
    | error fault => exact .inr ⟨.image fault, rfl, rfl⟩

/-- An image whose table of exceptions has one entry, which is taken. A search in it would not end. -/
def fullTable : List UInt8 :=
  [10, 1, 7, 4, 0, 0, 0, 2] ++ List.replicate 24 0 ++ [16, 0, 0, 0] ++ [1, 0, 0, 0] ++ List.replicate 8 0 ++
    [5, 0, 0, 80]

/-- A full table is refused before it is searched. -/
theorem ofImage_total_fullTable :
    seedFingerprint Seed.standard.value ≠ 0 ∧
      (ofImage? Seed.standard.value fullTable).run = some (.error (.image .exceptionTableCorrupt)) := by
  have usable := Seed.standard.fingerprint_ne_zero
  have refused : ofImage Seed.standard.value fullTable = .error (.image .exceptionTableCorrupt) := by
    rw [ofImage, Seed.check_value]
    rfl
  exact ⟨usable, refused ▸ (ofImage_total Seed.standard.value usable fullTable).1⟩

end Sketch

end DistinctCount
