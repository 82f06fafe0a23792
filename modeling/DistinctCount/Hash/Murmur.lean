import DistinctCount.Bytes

/-! The 128-bit Murmur hash of a byte string, third version, for 64-bit words. -/

namespace DistinctCount

/-- Two 64-bit halves: a running state of the hash, or its final value. -/
structure Digest where
  low : UInt64
  high : UInt64
deriving DecidableEq

namespace Murmur

def rotateLeft (x count : UInt64) : UInt64 :=
  (x <<< count) ||| (x >>> (64 - count))

def scrambleLow (k : UInt64) : UInt64 :=
  rotateLeft (k * 0x87c37b91114253d5) 31 * 0x4cf5ad432745937f

def scrambleHigh (k : UInt64) : UInt64 :=
  rotateLeft (k * 0x4cf5ad432745937f) 33 * 0x87c37b91114253d5

/-- Mixes a full block of sixteen bytes, given as two words. -/
def absorb (state : Digest) (k₁ k₂ : UInt64) : Digest :=
  let low := (rotateLeft (state.low ^^^ scrambleLow k₁) 27 + state.high) * 5 + 0x52dce729
  let high := (rotateLeft (state.high ^^^ scrambleHigh k₂) 31 + low) * 5 + 0x38495ab5
  ⟨low, high⟩

def word (bytes : List UInt8) : UInt64 := UInt64.ofNat (ofLeBytes bytes)

/-- Mixes as many full blocks as told and leaves the rest of the bytes. -/
def absorbBlocks : (blocks : Nat) → Digest → List UInt8 → Digest × List UInt8
  | 0, state, bytes => (state, bytes)
  | blocks + 1, state, bytes =>
    let (first, rest) := bytes.splitAt 8
    let (second, rest) := rest.splitAt 8
    absorbBlocks blocks (absorb state (word first) (word second)) rest

/-- Mixes the last bytes, fewer than a block, with missing ones read as zero. -/
def absorbTail (state : Digest) (bytes : List UInt8) : Digest :=
  ⟨state.low ^^^ scrambleLow (word (bytes.take 8)), state.high ^^^ scrambleHigh (word (bytes.drop 8))⟩

def avalanche (k : UInt64) : UInt64 :=
  let k := (k ^^^ (k >>> 33)) * 0xff51afd7ed558ccd
  let k := (k ^^^ (k >>> 33)) * 0xc4ceb9fe1a85ec53
  k ^^^ (k >>> 33)

def finish (state : Digest) (length : UInt64) : Digest :=
  let low := state.low ^^^ length
  let high := state.high ^^^ length
  let low := low + high
  let high := high + low
  let low := avalanche low
  let high := avalanche high
  let low := low + high
  ⟨low, high + low⟩

end Murmur

/-- The hash of a byte string under a 32-bit seed. -/
def digest (seed : UInt32) (bytes : List UInt8) : Digest :=
  let length := bytes.length
  let (state, rest) := Murmur.absorbBlocks (length / 16) ⟨seed.toUInt64, seed.toUInt64⟩ bytes
  Murmur.finish (Murmur.absorbTail state rest) (UInt64.ofNat length)

end DistinctCount
