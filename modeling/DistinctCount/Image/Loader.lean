import DistinctCount.Image.Preamble
import DistinctCount.Sketch

/-! Reading sketches from bytes, with the assertions of the program off or on. Only one of them can fail while an
image is read: that a token has its exception. -/

namespace DistinctCount

namespace CouponList

/-- Builds a list from coupons that must be taken and distinct. -/
def read (coupons : List Coupon) : Reader CouponList :=
  coupons.zipIdx.foldlM (fun list (c, index) => do
    Reader.refuseIf (c = Coupon.empty) (.emptyCoupon .list index)
    Reader.refuseIf (list.contains c) (.repeatedCoupon .list index)
    return list.insert c) empty

end CouponList

namespace CouponSet

/-- Builds a set from coupons that must be taken and distinct. -/
def read (lgSize : Nat) (coupons : List Coupon) : Reader CouponSet :=
  coupons.zipIdx.foldlM (fun set (c, index) => do
    Reader.refuseIf (c = Coupon.empty) (.emptyCoupon .set index)
    Reader.refuseIf (set.contains c) (.repeatedCoupon .set index)
    return set.insert c) (empty lgSize)

end CouponSet

namespace Exceptions

/-- Builds a table from entries whose registers must exist and be distinct. -/
def read (p : Precision) (entries : List Coupon) : Reader Exceptions :=
  entries.zipIdx.foldlM (fun exceptions (entry, index) => do
    Reader.refuseIf (p.size ≤ entry.slot) (.exceptionOutOfRange index entry.slot)
    Reader.refuseIf (exceptions.contains entry.slot) (.repeatedException entry.slot)
    return exceptions.insert entry.slot entry.value) (empty p)

/-- Reads the taken entries alone. -/
def readCompact (p : Precision) (count : Nat) : Reader (Option Exceptions) := do
  if count = 0 then return none
  Reader.refuseIf (p.size < count) (.tooManyExceptions count p.size)
  let entries ← Reader.coupons count .exceptionEntries
  return some (← read p entries)

def readUpdatable (p : Precision) (lgSize count : Nat) : Reader (Option Exceptions) := do
  Reader.refuseIf (lgMaxSize p < lgSize) (.exceptionTableSize lgSize p.lg)
  let entries ← Reader.coupons (2 ^ lgSize) .exceptionTable
  if count = 0 ∧ entries.all (· = Coupon.empty) then return none
  let some exceptions := ofTable? p (.ofEntries lgSize entries.toArray)
    | throw .exceptionTableCorrupt
  Reader.refuseIf (exceptions.count ≠ count) (.exceptionCountMismatch exceptions.count count)
  return some exceptions

def bindingsOf : Option Exceptions → List (Nat × Nat)
  | some exceptions => exceptions.bindings
  | none => []

/-- Each token must have one exception, and each exception a token and a value that needs it. -/
def checkAgainst (exceptions : Option Exceptions) (p : Precision) (cells : Nibbles)
    (base count : Nat) : Reader Unit := do
  let tokens := (List.range p.size).countP (cells.get · = Registers.token)
  Reader.refuseIf (tokens ≠ count) (.tokenCountMismatch tokens count)
  let bindings := bindingsOf exceptions
  if let some (slot, _) := bindings.find? fun (slot, _) => cells.get slot ≠ Registers.token then
    throw (.exceptionWithoutToken slot)
  let least := base + Registers.token
  if let some (slot, value) :=
      bindings.find? fun (_, value) => value < least || Coupon.maxValue < value then
    throw (.exceptionValue slot value least)

end Exceptions

namespace Registers

def read (preamble : Preamble) (exceptionCount : Nat) : Reader Registers := do
  let p := preamble.precision
  let bytes := (← Reader.bytes (byteCount preamble.width p.size) .registers).toArray
  match preamble.width with
  | .four =>
    let exceptions ←
      match preamble.flags.layout with
      | .compact => Exceptions.readCompact p exceptionCount
      | .updatable => Exceptions.readUpdatable p preamble.lgSize exceptionCount
    Exceptions.checkAgainst exceptions p ⟨bytes⟩ preamble.count exceptionCount
    return .four ⟨bytes⟩ exceptions
  | .six => return .six ⟨bytes⟩
  | .eight => return .eight ⟨bytes⟩

end Registers

namespace RegisterArray

/-- Takes over a pending tally with its scan, and any other only if it describes the registers. -/
def accept (a : RegisterArray Float) (pending : Bool) : Reader (RegisterArray Float) := do
  if let some value := a.values.find? (Coupon.maxValue < ·) then
    throw (.registerTooLarge value)
  let scanned := a.scan
  if pending then return { a with upkeep := .pending (some scanned) }
  Reader.refuseIf (!a.tally.sameBase scanned)
    (.tallyBase a.tally.base a.tally.atBase scanned.base scanned.atBase)
  Reader.refuseIf (!a.tally.sameSum scanned) (.tallySum a.tally.low a.tally.high)
  return a

/-- Reads registers and their tally, before the one is compared with the other. -/
def readParts (preamble : Preamble) : Reader (RegisterArray Float) := do
  let p := preamble.precision
  let width := preamble.width
  let base := preamble.count
  let historic ← Reader.float .historic
  let low ← Reader.float .lowSum
  let high ← Reader.float .highSum
  let atBase ← Reader.number 4 .atBase
  let exceptionCount ← Reader.number 4 .exceptionCount
  Reader.refuseIf (Coupon.maxValue < base) (.baseTooLarge base)
  Reader.refuseIf (width ≠ .four ∧ base ≠ 0) (.baseOfWidth width base)
  Reader.refuseIf (p.size < atBase) (.atBaseTooLarge atBase p.size)
  Reader.refuseIf (width ≠ .four ∧ exceptionCount ≠ 0) (.exceptionsOfWidth width exceptionCount)
  let registers ← Registers.read preamble exceptionCount
  return ⟨p, registers, ⟨base, atBase, low, high⟩, historic, .settled⟩

def read (preamble : Preamble) : Reader (RegisterArray Float) := do
  let a ← readParts preamble
  accept a preamble.flags.pending

/-- The value of a register with assertions on. -/
def getAsserted (a : RegisterArray Float) (slot : Nat) : Except StrayToken Nat :=
  if a.registers.isStray slot then .error ⟨slot⟩ else .ok (a.get slot)

/-- Looks through registers for a value that is too large, with assertions on. -/
def findTooLarge (a : RegisterArray Float) : List Nat → Except StrayToken (Option Nat)
  | [] => .ok none
  | slot :: rest => do
    let value ← a.getAsserted slot
    if Coupon.maxValue < value then return some value else a.findTooLarge rest

/-- Reads like `read`, but with assertions on. It is the search for values that are too large that gets to
the registers first. -/
def readAsserting (preamble : Preamble) : Reader (Except StrayToken (RegisterArray Float)) := do
  let a ← readParts preamble
  match a.findTooLarge (List.range a.precision.size) with
  | .error stray => return .error stray
  | .ok _ => return .ok (← accept a preamble.flags.pending)

end RegisterArray

namespace Store

def readList (preamble : Preamble) : Reader (Store Float) := do
  let count := preamble.count
  Reader.refuseIf (CouponList.capacity ≤ count) (.listCount count)
  Reader.refuseIf (preamble.flags.empty ∧ count ≠ 0) (.emptyFlagWithCoupons count)
  let coupons ←
    match preamble.flags.layout with
    | .compact => Reader.coupons count .listCoupons
    | .updatable =>
      Reader.refuseIf (preamble.lgSize ≠ CouponList.lgCapacity) (.listTableSize preamble.lgSize)
      let table ← Reader.coupons CouponList.capacity .listCoupons
      Reader.refuseIf ((table.drop count).any (· ≠ Coupon.empty)) .couponsPastCount
      pure (table.take count)
  return .list (← CouponList.read coupons) preamble.width

/-- The table for the coupons of a compact image: of the size that the image names if they fit into it,
or else of the smallest size. -/
def compactLgSize (preamble : Preamble) (count : Nat) : Nat :=
  let least := CouponSet.lgSizeFor count
  if least ≤ preamble.lgSize ∧ preamble.lgSize ≤ lgMaxSetSize preamble.precision then preamble.lgSize
  else least

def readCompactSet (preamble : Preamble) (count : Nat) : Reader CouponSet := do
  let p := preamble.precision
  let lgSize := compactLgSize preamble count
  Reader.refuseIf (lgMaxSetSize p < lgSize) (.setCapacity count p.lg)
  CouponSet.read lgSize (← Reader.coupons count .setCoupons)

/-- Reads a whole table and adopts it, unless it is overloaded or probing does not lead back to each
coupon. -/
def readUpdatableSet (preamble : Preamble) (count : Nat) : Reader CouponSet := do
  let lgSize := preamble.lgSize
  let largest := lgMaxSetSize preamble.precision
  Reader.refuseIf (lgSize < CouponSet.lgMinSize ∨ largest < lgSize) (.setTableSize lgSize largest)
  let entries ← Reader.coupons (2 ^ lgSize) .setCoupons
  let set : CouponSet := ⟨.ofEntries lgSize entries.toArray⟩
  Reader.refuseIf (set.count ≠ count) (.setCountMismatch set.count count)
  Reader.refuseIf set.isOverloaded .setOverloaded
  Reader.refuseIf (!set.coupons.all set.contains) .setUnreachable
  return set

def readSet (preamble : Preamble) : Reader (Store Float) := do
  Reader.refuseIf (preamble.precision.lg < lgMinForSet) (.setPrecision preamble.precision.lg)
  let count ← Reader.number 4 .setCount
  let set ←
    match preamble.flags.layout with
    | .compact => readCompactSet preamble count
    | .updatable => readUpdatableSet preamble count
  return .set set preamble.width

def read (preamble : Preamble) : Reader (Store Float) := do
  Reader.refuseIf (preamble.flags.empty ∧ preamble.mode ≠ .list) (.emptyFlagInMode preamble.mode)
  match preamble.mode with
  | .list => readList preamble
  | .set => readSet preamble
  | .registers => return .registers (← RegisterArray.read preamble)

def readAsserting (preamble : Preamble) : Reader (Except StrayToken (Store Float)) := do
  Reader.refuseIf (preamble.flags.empty ∧ preamble.mode ≠ .list) (.emptyFlagInMode preamble.mode)
  match preamble.mode with
  | .list => return .ok (← readList preamble)
  | .set => return .ok (← readSet preamble)
  | .registers => return (← RegisterArray.readAsserting preamble).map .registers

end Store

namespace Sketch

/-- Reads a sketch for a seed. Bytes behind the image are left alone. -/
def read (seed : Seed) : Reader (Sketch Float) := do
  let preamble ← Preamble.read
  let store ← Store.read preamble
  return ⟨preamble.precision, seed, preamble.flags.outOfOrder, store⟩

/-- The sketch of an image. An image does not name its seed, so the caller vouches for it. -/
def ofImage (seed : UInt32) (bytes : List UInt8) : Except Fault (Sketch Float) := do
  let seed ← Seed.check seed
  ((read seed).run' bytes).mapError .image

def readAsserting (seed : Seed) : Reader (Except StrayToken (Sketch Float)) := do
  let preamble ← Preamble.read
  let store ← Store.readAsserting preamble
  return store.map fun store => ⟨preamble.precision, seed, preamble.flags.outOfOrder, store⟩

/-- The sketch of an image with assertions on: a fault as without them, or else a stray token that stopped
the program, or the sketch. -/
def ofImageAsserting (seed : UInt32) (bytes : List UInt8) :
    Except Fault (Except StrayToken (Sketch Float)) := do
  let seed ← Seed.check seed
  ((readAsserting seed).run' bytes).mapError .image

end Sketch

end DistinctCount
