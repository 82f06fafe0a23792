namespace DistinctCount

/-- Packed cells, cell `i` in the six bits from bit `6 * i` on, the low bits of a byte first. -/
structure Sextets where
  bytes : Array UInt8
deriving DecidableEq

namespace Sextets

/-- The bytes that `size` cells take, and one more, so that each cell lies in a pair of bytes. -/
def byteCount (size : Nat) : Nat := size * 3 / 4 + 1

def zeros (size : Nat) : Sextets := ⟨Array.replicate (byteCount size) 0⟩

/-- The first byte of the pair in which a cell lies. -/
def index (slot : Nat) : Nat := slot * 6 / 8

/-- The bits of the pair below a cell. -/
def shift (slot : Nat) : Nat := slot * 6 % 8

/-- A pair of neighbouring bytes as one number. -/
def pair (s : Sextets) (index : Nat) : Nat :=
  (s.bytes.getD index 0).toNat + 256 * (s.bytes.getD (index + 1) 0).toNat

def get (s : Sextets) (slot : Nat) : Nat :=
  (s.pair (index slot) >>> shift slot) % 64

/-- Writes a cell through its pair of bytes. -/
def put (s : Sextets) (slot value : Nat) : Sextets :=
  let i := index slot
  let pair := s.pair i
  let changed := pair - (s.get slot <<< shift slot) + ((value % 64) <<< shift slot)
  ⟨(s.bytes.setIfInBounds i (UInt8.ofNat changed)).setIfInBounds (i + 1) (UInt8.ofNat (changed / 256))⟩

theorem size_put (s : Sextets) (slot value : Nat) : (s.put slot value).bytes.size = s.bytes.size := by
  simp [put]

end Sextets

end DistinctCount
