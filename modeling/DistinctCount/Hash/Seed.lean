import DistinctCount.Hash.Murmur

namespace DistinctCount

/-- The low sixteen bits of the hash of a seed. -/
def seedFingerprint (seed : UInt32) : UInt16 :=
  (digest 0 (leBytes 8 seed.toNat)).low.toUInt16

/-- A seed whose fingerprint is not the reserved zero. -/
structure Seed where
  value : UInt32
  fingerprint_ne_zero : seedFingerprint value ≠ 0

namespace Seed

def fingerprint (seed : Seed) : UInt16 := seedFingerprint seed.value

/-- The seed of sketches that name none. -/
def standard : Seed := ⟨9001, by decide +kernel⟩

def ofWord? (value : UInt32) : Option Seed :=
  if h : seedFingerprint value ≠ 0 then some ⟨value, h⟩ else none

end Seed

end DistinctCount
