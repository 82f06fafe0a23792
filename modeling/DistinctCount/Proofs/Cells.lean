import DistinctCount.Registers.Nibbles
import DistinctCount.Registers.Octets
import DistinctCount.Registers.Sextets
import Mathlib.Tactic.SplitIfs

/-! Packed cells are arrays of independent cells, and their bytes hold nothing but the cells. Six-bit cells lie
across the borders of bytes, so theirs are told bit by bit. -/

namespace DistinctCount

private theorem bytes_ext {a b : Array UInt8} (size : a.size = b.size)
    (same : ∀ i < a.size, (a.getD i 0).toNat = (b.getD i 0).toNat) : a = b := by
  apply Array.ext size
  intro i left right
  have equal := UInt8.toNat_inj.mp (same i left)
  simpa [Array.getD_eq_getD_getElem?, left, right] using equal

private theorem eq_of_low_bits {a b n : Nat} (left : a < 2 ^ n) (right : b < 2 ^ n)
    (same : ∀ j < n, a.testBit j = b.testBit j) : a = b := by
  apply Nat.eq_of_testBit_eq
  intro j
  by_cases low : j < n
  · exact same j low
  · have high : 2 ^ n ≤ 2 ^ j := Nat.pow_le_pow_right Nat.two_pos (Nat.le_of_not_lt low)
    rw [Nat.testBit_lt_two_pow (Nat.lt_of_lt_of_le left high),
      Nat.testBit_lt_two_pow (Nat.lt_of_lt_of_le right high)]

namespace Nibbles

theorem get_lt (n : Nibbles) (slot : Nat) : n.get slot < 16 := by
  have : n.byte (slot / 2) < 256 := UInt8.toNat_lt _
  unfold get
  split <;> omega

theorem get_zeros (size slot : Nat) : (zeros size).get slot = 0 := by
  have none : (zeros size).byte (slot / 2) = 0 := by
    simp only [byte, zeros, Array.getD_eq_getD_getElem?, Array.getElem?_replicate]
    split <;> rfl
  simp [get, none]

theorem size_zeros (size : Nat) : (zeros size).bytes.size = byteCount size := by simp [zeros]

theorem ext_get {a b : Nibbles} {size : Nat} (left : a.bytes.size = byteCount size)
    (right : b.bytes.size = byteCount size) (same : ∀ slot < size, a.get slot = b.get slot) :
    a = b := by
  have bytes : a.bytes = b.bytes := by
    apply bytes_ext (left.trans right.symm)
    intro i inside
    rw [left, byteCount] at inside
    have low := same (2 * i) (by omega)
    have high := same (2 * i + 1) (by omega)
    simp only [get, show 2 * i / 2 = i by omega, show (2 * i + 1) / 2 = i by omega,
      show 2 * i % 2 = 0 by omega, show (2 * i + 1) % 2 = 1 by omega, if_true, byte,
      Nat.one_ne_zero, if_false] at low high
    omega
  exact congrArg mk bytes

end Nibbles

namespace Octets

theorem get_zeros (size slot : Nat) : (zeros size).get slot = 0 := by
  simp only [get, zeros, Array.getD_eq_getD_getElem?, Array.getElem?_replicate]
  split <;> rfl

theorem size_zeros (size : Nat) : (zeros size).bytes.size = size := by simp [zeros]

theorem ext_get {a b : Octets} {size : Nat} (left : a.bytes.size = size) (right : b.bytes.size = size)
    (same : ∀ slot < size, a.get slot = b.get slot) : a = b := by
  have bytes : a.bytes = b.bytes :=
    bytes_ext (left.trans right.symm) (fun i inside => same i (left ▸ inside))
  exact congrArg mk bytes

theorem get_maxima (a b : Octets) (same : a.bytes.size = b.bytes.size) (slot : Nat) :
    (a.maxima b).get slot = max (a.get slot) (b.get slot) := by
  simp only [get, maxima, Array.getD_eq_getD_getElem?, Array.getElem?_zipWith]
  by_cases inside : slot < a.bytes.size
  · have also : slot < b.bytes.size := same ▸ inside
    simp only [Array.getElem?_eq_getElem inside, Array.getElem?_eq_getElem also, Option.getD_some]
    split <;> rename_i order <;> rw [UInt8.lt_iff_toNat_lt] at order <;> omega
  · have also : ¬ slot < b.bytes.size := same ▸ inside
    simp [inside, also]

end Octets

namespace Sextets

variable {s : Sextets} {slot other value : Nat}

def byte (s : Sextets) (index : Nat) : Nat := (s.bytes.getD index 0).toNat

theorem byte_lt (s : Sextets) (index : Nat) : s.byte index < 2 ^ 8 := UInt8.toNat_lt _

/-- The bits of all bytes in one row, the low bits of a byte first. -/
def bit (s : Sextets) (i : Nat) : Bool := (s.byte (i / 8)).testBit (i % 8)

theorem testBit_byte (s : Sextets) {index j : Nat} (low : j < 8) :
    (s.byte index).testBit j = s.bit (8 * index + j) := by
  have here : (8 * index + j) / 8 = index := by omega
  have place : (8 * index + j) % 8 = j := by omega
  rw [bit, here, place]

theorem byte_eq_of_bits {a b : Sextets} {index : Nat}
    (same : ∀ j < 8, a.bit (8 * index + j) = b.bit (8 * index + j)) : a.byte index = b.byte index := by
  apply eq_of_low_bits (a.byte_lt index) (b.byte_lt index)
  intro j low
  rw [a.testBit_byte low, b.testBit_byte low, same j low]

theorem pair_eq (s : Sextets) (index : Nat) : s.pair index = 2 ^ 8 * s.byte (index + 1) + s.byte index :=
  Nat.add_comm ..

theorem testBit_pair (s : Sextets) {index j : Nat} (low : j < 16) :
    (s.pair index).testBit j = s.bit (8 * index + j) := by
  rw [pair_eq, Nat.testBit_two_pow_mul_add _ (s.byte_lt index)]
  split_ifs with first
  · exact s.testBit_byte first
  · have next : 8 * (index + 1) + (j - 8) = 8 * index + j := by omega
    rw [s.testBit_byte (by omega), next]

theorem index_shift (slot : Nat) : 8 * index slot + shift slot = 6 * slot := by
  rw [index, shift, Nat.div_add_mod, Nat.mul_comm]

theorem shift_le (slot : Nat) : shift slot ≤ 6 := by
  rw [shift]
  omega

theorem get_lt (s : Sextets) (slot : Nat) : s.get slot < 2 ^ 6 := Nat.mod_lt _ (by decide)

theorem testBit_get (s : Sextets) {slot j : Nat} (low : j < 6) :
    (s.get slot).testBit j = s.bit (6 * slot + j) := by
  have small := shift_le slot
  rw [get, Nat.testBit_mod_two_pow _ 6, Nat.testBit_shiftRight, s.testBit_pair (by omega), ← Nat.add_assoc,
    index_shift, decide_eq_true low, Bool.true_and]

theorem bit_eq (s : Sextets) (i : Nat) : s.bit i = (s.get (i / 6)).testBit (i % 6) := by
  rw [s.testBit_get (Nat.mod_lt i (by decide)), Nat.div_add_mod]

/-- Six bits of a word are exchanged for those of a value. -/
theorem testBit_exchange (word shift value j : Nat) :
    (word - (word >>> shift % 64) <<< shift + (value % 64) <<< shift).testBit j =
      if shift ≤ j ∧ j < shift + 6 then value.testBit (j - shift) else word.testBit j := by
  have low := Nat.mod_lt word (Nat.two_pow_pos shift)
  have cell := Nat.mod_lt value (Nat.two_pow_pos 6)
  have parts : word - (word >>> shift % 64) <<< shift + (value % 64) <<< shift =
      2 ^ shift * (2 ^ 6 * (word >>> shift / 2 ^ 6) + value % 2 ^ 6) + word % 2 ^ shift := by
    have whole := Nat.div_add_mod word (2 ^ shift)
    have upper := Nat.div_add_mod (word >>> shift) 64
    rw [← Nat.shiftRight_eq_div_pow, ← upper, Nat.mul_add] at whole
    rw [Nat.shiftLeft_eq, Nat.shiftLeft_eq, Nat.mul_comm _ (2 ^ shift), Nat.mul_comm _ (2 ^ shift), Nat.mul_add]
    simp only [Nat.reducePow]
    omega
  rw [parts, Nat.testBit_two_pow_mul_add _ low, Nat.testBit_two_pow_mul_add _ cell]
  by_cases below : j < shift
  · rw [if_pos below, if_neg (by omega), Nat.testBit_mod_two_pow, decide_eq_true below, Bool.true_and]
  · rw [if_neg below]
    by_cases inside : j < shift + 6
    · rw [if_pos (by omega), if_pos (by omega), Nat.testBit_mod_two_pow, decide_eq_true (by omega), Bool.true_and]
    · have place : shift + (j - shift - 6 + 6) = j := by omega
      rw [if_neg (by omega), if_neg (by omega), Nat.testBit_div_two_pow, Nat.testBit_shiftRight, place]

private theorem byte_put_of_ne (s : Sextets) {slot value i : Nat} (low : index slot ≠ i)
    (high : index slot + 1 ≠ i) : (s.put slot value).byte i = s.byte i := by
  simp only [put, byte, Array.getD_eq_getD_getElem?]
  rw [Array.getElem?_setIfInBounds_ne high, Array.getElem?_setIfInBounds_ne low]

private theorem pair_put (s : Sextets) (slot value : Nat) (inside : index slot + 1 < s.bytes.size) :
    (s.put slot value).pair (index slot) =
      (s.pair (index slot) - (s.get slot <<< shift slot) + ((value % 64) <<< shift slot)) % 2 ^ 16 := by
  have before := Nat.lt_of_succ_lt inside
  rw [pair_eq]
  simp only [put, byte, Array.getD_eq_getD_getElem?, Array.getElem?_setIfInBounds, Array.size_setIfInBounds,
    inside, before, if_true, if_neg (Nat.succ_ne_self _), Option.getD_some, UInt8.toNat_ofNat']
  omega

theorem bit_put (s : Sextets) (slot value i : Nat) (inside : index slot + 1 < s.bytes.size) :
    (s.put slot value).bit i =
      if 6 * slot ≤ i ∧ i < 6 * slot + 6 then value.testBit (i - 6 * slot) else s.bit i := by
  have start := index_shift slot
  have small := shift_le slot
  by_cases near : 8 * index slot ≤ i ∧ i < 8 * index slot + 16
  · obtain ⟨j, rfl⟩ := Nat.exists_eq_add_of_le near.1
    have low : j < 16 := by omega
    rw [← testBit_pair _ low, ← testBit_pair _ low, s.pair_put slot value inside, Nat.testBit_mod_two_pow,
      decide_eq_true low, Bool.true_and, get, testBit_exchange]
    by_cases within : shift slot ≤ j ∧ j < shift slot + 6
    · have place : j - shift slot = 8 * index slot + j - 6 * slot := by omega
      rw [if_pos within, if_pos (by omega), place]
    · rw [if_neg within, if_neg (by omega)]
  · rw [bit, s.byte_put_of_ne (by omega) (by omega), if_neg (by omega), bit]

-- The first cell leaves two bits of its byte to the second.
example : (((zeros 16).put 0 63).put 1 1).bytes.toList.take 2 = [0b0111_1111, 0] := by decide

theorem get_put (s : Sextets) (slot other value : Nat) (inside : index slot + 1 < s.bytes.size)
    (bound : value < 64) :
    (s.put slot value).get other = if other = slot then value else s.get other := by
  by_cases same : other = slot
  · subst same
    rw [if_pos rfl]
    apply eq_of_low_bits (get_lt _ other) bound
    intro j low
    rw [testBit_get _ low, s.bit_put _ _ _ inside, if_pos (by omega), Nat.add_sub_cancel_left]
  · rw [if_neg same]
    apply eq_of_low_bits (get_lt _ other) (s.get_lt other)
    intro j low
    rw [testBit_get _ low, s.bit_put _ _ _ inside, if_neg (by omega), s.testBit_get low]

theorem get_zeros (size slot : Nat) : (zeros size).get slot = 0 := by
  have none (i : Nat) : (zeros size).bytes.getD i 0 = 0 := by
    simp only [zeros, Array.getD_eq_getD_getElem?, Array.getElem?_replicate]
    split <;> rfl
  simp [get, pair, none]

theorem size_zeros (size : Nat) : (zeros size).bytes.size = byteCount size := by simp [zeros]

/-- The byte behind the last cell. -/
def padding (s : Sextets) (size : Nat) : Nat := s.byte (size * 3 / 4)

theorem inside_of_lt {size : Nat} (whole : size % 4 = 0) (inside : slot < size) :
    index slot + 1 < byteCount size := by
  simp only [index, byteCount]
  omega

theorem padding_put {size : Nat} (whole : size % 4 = 0) (sized : s.bytes.size = byteCount size)
    (inside : slot < size) : (s.put slot value).padding size = s.padding size := by
  have fits := inside_of_lt whole inside
  rw [← sized] at fits
  apply byte_eq_of_bits
  intro j low
  rw [s.bit_put _ _ _ fits, if_neg (by omega)]

theorem padding_zeros (size : Nat) : (zeros size).padding size = 0 := by
  simp only [padding, byte, zeros, Array.getD_eq_getD_getElem?, Array.getElem?_replicate]
  split <;> rfl

/-- Cells that are all equal leave no bit before the padding open. -/
theorem get_eq_iff_bit_eq {a b : Sextets} {size : Nat} :
    (∀ slot < size, a.get slot = b.get slot) ↔ ∀ i < 6 * size, a.bit i = b.bit i := by
  constructor
  · intro same i inside
    rw [a.bit_eq, b.bit_eq, same (i / 6) (by omega)]
  · intro same slot inside
    apply eq_of_low_bits (a.get_lt slot) (b.get_lt slot)
    intro j low
    rw [a.testBit_get low, b.testBit_get low, same _ (by omega)]

theorem ext_get {a b : Sextets} {size : Nat} (whole : size % 4 = 0)
    (left : a.bytes.size = byteCount size) (right : b.bytes.size = byteCount size)
    (same : ∀ slot < size, a.get slot = b.get slot) (padding : a.padding size = b.padding size) :
    a = b := by
  have bytes : a.bytes = b.bytes := by
    apply bytes_ext (left.trans right.symm)
    intro i inside
    rw [left, byteCount] at inside
    change a.byte i = b.byte i
    by_cases last : i = size * 3 / 4
    · rw [last]
      exact padding
    · apply byte_eq_of_bits
      intro j low
      exact get_eq_iff_bit_eq.mp same _ (by omega)
  exact congrArg mk bytes

end Sextets

end DistinctCount
