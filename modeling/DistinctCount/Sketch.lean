import DistinctCount.Fault
import DistinctCount.Hash.Item
import DistinctCount.Hash.Seed
import DistinctCount.Store

namespace DistinctCount

/-- A sketch. It is out of order once it is the product of a merge; its historic estimate is void then. -/
structure Sketch (α : Type) where
  precision : Precision
  seed : Seed
  outOfOrder : Bool
  store : Store α

/-- The seed under which a sketch can be built, if its fingerprint is not the reserved zero. -/
def Seed.check (value : UInt32) : Except Fault Seed :=
  (Seed.ofWord? value).elim (.error (.unusableSeed value)) .ok

namespace Sketch

section

variable {α : Type} [Scalar α]

def empty (p : Precision) (width : Width) (seed : Seed) : Sketch α :=
  ⟨p, seed, false, .empty width⟩

/-- An empty sketch under the standard seed. -/
def create (lg : Nat) (width : Width) : Except OutOfRange (Sketch α) :=
  (Precision.check "lg_config_k" lg).map fun p => empty p width .standard

def width (s : Sketch α) : Width := s.store.width

def mode (s : Sketch α) : Mode := s.store.mode

/-- Whether nothing was presented since the sketch was made or emptied. -/
def isEmpty (s : Sketch α) : Bool := s.store.isEmpty

def estimatorKind (s : Sketch α) : EstimatorKind :=
  match s.store, s.outOfOrder with
  | .registers _, false => .historic
  | .registers _, true => .composite
  | _, _ => .coupon

def addCoupon (s : Sketch α) (c : Coupon) : Sketch α :=
  { s with store := s.store.update s.precision c !s.outOfOrder }

def addCoupons (s : Sketch α) (coupons : List Coupon) : Sketch α :=
  coupons.foldl addCoupon s

/-- Presents the stream of an item, even if it is empty. -/
def add (s : Sketch α) (item : Item) : Sketch α :=
  s.addCoupon (.ofDigest (digest s.seed.value item.stream))

/-- Presents bytes as they are. No bytes are no item. -/
def addBytes (s : Sketch α) (bytes : List UInt8) : Sketch α :=
  if bytes.isEmpty then s else s.addCoupon (.ofDigest (digest s.seed.value bytes))

def cleared (s : Sketch α) : Sketch α := empty s.precision s.width s.seed

/-- The same content for registers of another width. -/
def copyAs (s : Sketch α) (width : Width) : Sketch α :=
  { s with store := s.store.copyAs width }

/-- Scans registers with pending upkeep once for all readers that follow. -/
def primed (s : Sketch α) : Sketch α :=
  { s with store := s.store.primed }

end

variable {α : Type} [Analytic α]

def estimate (s : Sketch α) : α := s.store.estimate s.outOfOrder

/-- The estimate that does not depend on the order of arrival. -/
def compositeEstimate (s : Sketch α) : α := s.store.compositeEstimate

def lowerBound (s : Sketch α) (deviation : Deviation) : α :=
  s.store.lowerBound s.outOfOrder deviation

def upperBound (s : Sketch α) (deviation : Deviation) : α :=
  s.store.upperBound s.outOfOrder deviation

end Sketch

/-- A sketch to be built, nothing of it checked yet. -/
structure Settings where
  lg : Nat
  width : Width := .four
  seed : UInt32 := Seed.standard.value
deriving DecidableEq

namespace Settings

def build {α : Type} [Scalar α] (s : Settings) : Except Fault (Sketch α) := do
  let p ← (Precision.check "lg_k" s.lg).mapError .outOfRange
  let seed ← Seed.check s.seed
  return .empty p s.width seed

end Settings

/-- A sketch that only answers. Its upkeep is done once, when it is taken. -/
structure Snapshot (α : Type) where
  sketch : Sketch α

namespace Snapshot

variable {α : Type} [Scalar α]

def take (s : Sketch α) : Snapshot α := ⟨{ s with store := s.store.settle }⟩

/-- A sketch with the content of the snapshot. -/
def toSketch (s : Snapshot α) : Sketch α := s.sketch

end Snapshot

end DistinctCount
