import DistinctCount.Image.Preamble
import DistinctCount.Sketch

namespace DistinctCount

/-- Bytes written over the front of a buffer. -/
def overlay (buffer written : List UInt8) : List UInt8 :=
  written ++ buffer.drop written.length

def couponBytes (coupons : List Coupon) : List UInt8 :=
  coupons.flatMap fun c => leBytes 4 c.word.toNat

def floatBytes (x : Float) : List UInt8 := leBytes 8 x.toBits.toNat

namespace Exceptions

def sorted (e : Exceptions) : List (Nat × Nat) :=
  e.bindings.mergeSort (fun a b => a.1 ≤ b.1)

end Exceptions

namespace RegisterArray

/-- The base-two logarithm of the table of exceptions, also of one that is still to come. -/
def lgTableSize {α : Type} (a : RegisterArray α) : Nat :=
  match a.registers with
  | .four _ (some exceptions) => exceptions.table.lgSize
  | .four _ none => Exceptions.lgMinSize a.precision
  | _ => 0

/-- The number of exceptions that an image holds, free entries included. -/
def entryCount {α : Type} (a : RegisterArray α) (layout : Layout) : Nat :=
  match a.registers, layout with
  | .four .., .compact => a.registers.exceptionCount
  | .four .., .updatable => 2 ^ a.lgTableSize
  | _, _ => 0

/-- The bytes of an image in front of its registers. -/
def headerSize : Nat := 40

def imageSize {α : Type} (a : RegisterArray α) (layout : Layout) : Nat :=
  headerSize + a.registers.bytes.size + 4 * a.entryCount layout

def entries {α : Type} (a : RegisterArray α) (layout : Layout) : List Coupon :=
  match a.registers, layout with
  | .four _ (some exceptions), .compact =>
    exceptions.sorted.map fun (slot, value) => Coupon.pack slot value
  | .four _ (some exceptions), .updatable => exceptions.table.entries.toList
  | .four _ none, .updatable => List.replicate (2 ^ a.lgTableSize) Coupon.empty
  | _, _ => []

/-- What follows the preamble. The tally is written as it is, even if it is pending. -/
def body (a : RegisterArray Float) (layout : Layout) : List UInt8 :=
  floatBytes a.historic ++ floatBytes a.tally.low ++ floatBytes a.tally.high
    ++ leBytes 4 a.tally.atBase ++ leBytes 4 a.registers.exceptionCount
    ++ a.registers.bytes.toList ++ couponBytes (a.entries layout)

end RegisterArray

namespace Store

def listHeaderSize : Nat := 8

def setHeaderSize : Nat := 12

def imageSize {α : Type} (s : Store α) (layout : Layout) : Nat :=
  match s, layout with
  | .list coupons _, .compact => listHeaderSize + 4 * coupons.count
  | .list .., .updatable => listHeaderSize + 4 * CouponList.capacity
  | .set coupons _, .compact => setHeaderSize + 4 * coupons.count
  | .set coupons _, .updatable => setHeaderSize + 4 * coupons.table.entries.size
  | .registers array, layout => array.imageSize layout

def body (s : Store Float) (layout : Layout) : List UInt8 :=
  match s, layout with
  | .list coupons _, .compact => couponBytes coupons.coupons
  | .list coupons _, .updatable =>
    couponBytes (coupons.coupons
      ++ List.replicate (CouponList.capacity - coupons.count) Coupon.empty)
  | .set coupons _, .compact => leBytes 4 coupons.count ++ couponBytes coupons.sorted
  | .set coupons _, .updatable =>
    leBytes 4 coupons.count ++ couponBytes coupons.table.entries.toList
  | .registers array, layout => array.body layout

end Store

namespace Sketch

def preamble {α : Type} [Scalar α] (s : Sketch α) (layout : Layout) : Preamble :=
  let flags : Flags := { compact := layout = .compact, outOfOrder := s.outOfOrder }
  match s.store with
  | .list coupons width =>
    let flags := { flags with empty := coupons.count = 0 }
    ⟨s.precision, CouponList.lgCapacity, flags, coupons.count, .list, width⟩
  | .set coupons width => ⟨s.precision, coupons.table.lgSize, flags, 0, .set, width⟩
  | .registers array =>
    let flags := { flags with pending := array.isPending }
    ⟨s.precision, array.lgTableSize, flags, array.tally.base, .registers, array.width⟩

def imageSize {α : Type} (s : Sketch α) (layout : Layout) : Nat := s.store.imageSize layout

/-- The image of a sketch written over the front of a buffer. -/
def writeOver (s : Sketch Float) (layout : Layout) (buffer : List UInt8) : List UInt8 :=
  overlay buffer ((s.preamble layout).bytes ++ s.store.body layout)

/-- The image of a sketch: a buffer of its size, written over. -/
def image (s : Sketch Float) (layout : Layout) : List UInt8 :=
  s.writeOver layout (List.replicate (s.imageSize layout) 0)

/-- Writes the updatable image to the front of a buffer that is long enough, and gives its size. -/
def writeInto (s : Sketch Float) (buffer : List UInt8) : Except Fault (Nat × List UInt8) :=
  let required := s.imageSize .updatable
  if buffer.length < required then .error (.bufferTooShort required buffer.length)
  else .ok (required, s.writeOver .updatable buffer)

/-- A size that the updatable image of no sketch of this configuration exceeds. Four-bit registers may
need the largest table of exceptions. -/
def maxImageSize (p : Precision) (width : Width) : Nat :=
  let entries := if width = .four then 2 ^ Exceptions.lgMaxSize p else 0
  RegisterArray.headerSize + Registers.byteCount width p.size + 4 * entries

end Sketch

end DistinctCount
