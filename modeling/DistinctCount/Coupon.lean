import DistinctCount.Hash.Murmur

/-! Coupons: what a sketch keeps of a hash. A coupon is a slot of 26 bits below a value of six bits. -/

namespace DistinctCount

/-- A slot and a value packed into one word. -/
structure Coupon where
  word : UInt32
deriving DecidableEq

namespace Coupon

/-- The number of slots that a coupon distinguishes. -/
def slots : Nat := 2 ^ 26

def maxValue : Nat := 63

/-- The mark of an unused table entry. No hash gives it, since a hash has a positive value. -/
def empty : Coupon := ⟨0⟩

def slot (c : Coupon) : Nat := c.word.toNat % slots

def value (c : Coupon) : Nat := c.word.toNat / slots

def pack (slot value : Nat) : Coupon :=
  ⟨UInt32.ofNat (value * slots + slot % slots)⟩

def leadingZeros (x : UInt64) : Nat :=
  if x = 0 then 64 else 63 - x.log2.toNat

/-- The coupon of a hash: the low bits of one half pick the slot, and the value is one more than the
leading zeros of the other half, held to six bits. -/
def ofDigest (d : Digest) : Coupon :=
  pack d.low.toUInt32.toNat (min (leadingZeros d.high) 62 + 1)

/-- The register of a coupon among `size` registers. -/
def register (c : Coupon) (size : Nat) : Nat := c.slot % size

theorem value_le_maxValue (c : Coupon) : c.value ≤ maxValue := by
  have := c.word.toNat_lt
  simp only [value, slots, maxValue]
  omega

theorem slot_lt_slots (c : Coupon) : c.slot < slots := Nat.mod_lt _ (Nat.two_pow_pos 26)

theorem pack_slot_value (c : Coupon) : pack c.slot c.value = c := by
  have bound := c.word.toNat_lt
  have same : (pack c.slot c.value).word.toNat = c.word.toNat := by
    simp only [pack, slot, value, slots, UInt32.toNat_ofNat']
    omega
  exact congrArg mk (UInt32.toNat_inj.mp same)

theorem slot_pack (s v : Nat) : (pack s v).slot = s % slots := by
  simp only [slot, pack, slots, UInt32.toNat_ofNat']
  omega

theorem value_pack (s v : Nat) (bound : v ≤ maxValue) : (pack s v).value = v := by
  simp only [maxValue] at bound
  simp only [value, pack, slots, UInt32.toNat_ofNat']
  omega

end Coupon

end DistinctCount
