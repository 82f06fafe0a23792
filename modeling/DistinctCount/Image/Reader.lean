import DistinctCount.Bytes
import DistinctCount.Coupon
import DistinctCount.Fault

namespace DistinctCount

abbrev Reader (β : Type) := StateT (List UInt8) (Except ImageFault) β

namespace Reader

def ensure (count : Nat) (part : ImagePart) : Reader Unit := do
  if (← get).length < count then throw (.truncated part)

def bytes (count : Nat) (part : ImagePart) : Reader (List UInt8) := do
  ensure count part
  let (front, rest) := (← get).splitAt count
  set rest
  return front

/-- A little-endian number of as many bytes. -/
def number (count : Nat) (part : ImagePart) : Reader Nat := do
  return ofLeBytes (← bytes count part)

def float (part : ImagePart) : Reader Float := do
  return Float.ofBits (UInt64.ofNat (← number 8 part))

def couponAt (bytes : Array UInt8) (position : Nat) : Coupon :=
  ⟨UInt32.ofNat (ofLeBytes [bytes.getD position 0, bytes.getD (position + 1) 0,
    bytes.getD (position + 2) 0, bytes.getD (position + 3) 0])⟩

def coupons (count : Nat) (part : ImagePart) : Reader (List Coupon) := do
  let bytes := (← bytes (4 * count) part).toArray
  return (List.range count).map fun i => couponAt bytes (4 * i)

def refuseIf (condition : Bool) (fault : ImageFault) : Reader Unit := do
  if condition then throw fault

end Reader

end DistinctCount
