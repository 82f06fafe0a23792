import DistinctCount.Proofs.Scanning

/-! Six-bit cells that are read and written through a pair of bytes, in words of sixteen bits. The pair holds
bits of other cells too, and behind the last cell those of the padding. All of them are written back as they
were. -/

namespace DistinctCount.Sextets

variable {p : Precision} {s : Sextets} {slot value size word shift : Nat}

/-- There is no place for a byte outside of its array. -/
def store? (bytes : Array UInt8) (index : Nat) (byte : UInt8) : Option (Array UInt8) :=
  if index < bytes.size then some (bytes.setIfInBounds index byte) else none

/-- Clears a cell in its pair of bytes and sets the bits of the value there, which must be one that a cell
can hold. -/
def put? (s : Sextets) (slot value : Nat) : Option Sextets := do
  if value ≤ 63 then
    let (index, shift, pair) ← s.window? slot
    let mask ← Word.shl 16 63 shift
    let cell ← Word.shl 16 value shift
    let changed := pair &&& ((2 ^ 16 - 1) ^^^ mask) ||| cell
    let bytes ← store? s.bytes index (UInt8.ofNat changed)
    let bytes ← store? bytes (← Word.add Word.index index 1) (UInt8.ofNat (changed / 256))
    return ⟨bytes⟩
  else none

theorem store?_eq {bytes : Array UInt8} {index : Nat} {byte : UInt8} (inside : index < bytes.size) :
    store? bytes index byte = some (bytes.setIfInBounds index byte) := if_pos inside

theorem pair_lt (s : Sextets) (index : Nat) : s.pair index < 2 ^ 16 := by
  have low := s.byte_lt index
  have high := s.byte_lt (index + 1)
  rw [pair_eq]
  omega

theorem shl_cell (bound : value < 2 ^ 6) (small : shift ≤ 6) :
    Word.shl 16 value shift = some (value <<< shift) := by
  have fits : value <<< shift < 2 ^ 16 :=
    calc value <<< shift = value * 2 ^ shift := Nat.shiftLeft_eq ..
      _ < 2 ^ 6 * 2 ^ shift := Nat.mul_lt_mul_of_pos_right bound (Nat.two_pow_pos shift)
      _ = 2 ^ (6 + shift) := (Nat.pow_add ..).symm
      _ ≤ 2 ^ 16 := Nat.pow_le_pow_right Nat.two_pos (by omega)
  exact Word.shl_eq (by omega) fits

theorem masked_eq_exchange (fits : word < 2 ^ 16) (bound : value < 2 ^ 6) :
    word &&& ((2 ^ 16 - 1) ^^^ 63 <<< shift) ||| value <<< shift =
      word - (word >>> shift % 64) <<< shift + (value % 64) <<< shift := by
  apply Nat.eq_of_testBit_eq
  intro j
  have mask : Nat.testBit 63 (j - shift) = decide (j - shift < 6) := Nat.testBit_two_pow_sub_one 6 _
  have short : (word.testBit j && decide (j < 16)) = word.testBit j := by
    rw [← Bool.and_comm, ← Nat.testBit_mod_two_pow, Nat.mod_eq_of_lt fits]
  rw [testBit_exchange, Nat.testBit_or, Nat.testBit_and, Nat.testBit_xor, Nat.testBit_two_pow_sub_one,
    Nat.testBit_shiftLeft, Nat.testBit_shiftLeft, mask, Bool.and_xor_distrib_left, short]
  -- The mask lets nothing through at the six bits of the cell. Before and behind them it lets all through, and the
  -- value has no bit to add there.
  by_cases within : shift ≤ j ∧ j < shift + 6
  · have low : j - shift < 6 := by omega
    simp [within, low]
  · rw [if_neg within]
    by_cases behind : shift ≤ j
    · have high : 6 ≤ j - shift := by omega
      have absent : value.testBit (j - shift) = false :=
        Nat.testBit_lt_two_pow (Nat.lt_of_lt_of_le bound (Nat.pow_le_pow_right Nat.two_pos high))
      simp [absent, Nat.not_lt_of_le high]
    · simp [behind]

theorem put?_eq (sized : s.bytes.size = byteCount size) (whole : size % 4 = 0) (few : size ≤ 2 ^ 21)
    (inside : slot < size) (bound : value ≤ 63) : s.put? slot value = some (s.put slot value) := by
  have pair := inside_of_lt whole inside
  rw [← sized] at pair
  have small := shift_le slot
  have mask : Word.shl 16 63 (shift slot) = some (63 <<< shift slot) := shl_cell (by decide) small
  have cell : Word.shl 16 value (shift slot) = some (value <<< shift slot) := shl_cell (Nat.lt_succ_of_le bound) small
  simp only [put?, if_pos bound, window?_eq sized whole few inside, mask, cell, next_index few inside,
    Option.bind_eq_bind, Option.bind_some, masked_eq_exchange (s.pair_lt _) (Nat.lt_succ_of_le bound)]
  rw [store?_eq (Nat.lt_of_succ_lt pair), Option.bind_some, store?_eq (by rwa [Array.size_setIfInBounds]),
    Option.bind_some]
  rfl

/-- Six-bit cells in bytes of any contents. Both bytes of the pair that a cell lies in are there, to be read and to
be written. A cell that is written holds the value, and the others hold what they held. So does each bit but the
six of the cell, those of the padding among them. Bytes whose cells are equal are equal in every bit that belongs
to a cell. -/
theorem independent_cells (sized : s.bytes.size = byteCount p.size) :
    (∀ slot < p.size,
      (index slot + 1 < s.bytes.size ∧ s.get? slot = some (s.get slot)) ∧
      ∀ value ≤ 63,
        (s.put? slot value = some (s.put slot value) ∧ (s.put slot value).bytes.size = s.bytes.size) ∧
        (s.put slot value).get slot = value ∧
        (∀ other < p.size, other ≠ slot → (s.put slot value).get other = s.get other) ∧
        (∀ i, (s.put slot value).bit i =
          if 6 * slot ≤ i ∧ i < 6 * slot + 6 then value.testBit (i - 6 * slot) else s.bit i) ∧
        (s.put slot value).padding p.size = s.padding p.size) ∧
    ∀ t : Sextets, t.bytes.size = byteCount p.size →
      ((∀ slot < p.size, s.get slot = t.get slot) ↔ ∀ i < 6 * p.size, s.bit i = t.bit i) := by
  have whole := p.size_mod_four
  have few := p.size_le
  constructor
  · intro slot inside
    have pair : index slot + 1 < s.bytes.size := sized ▸ inside_of_lt whole inside
    refine ⟨⟨pair, get?_eq sized whole few inside⟩, ?_⟩
    intro value bound
    have small : value < 64 := Nat.lt_succ_of_le bound
    refine ⟨⟨put?_eq sized whole few inside bound, s.size_put slot value⟩, ?_, ?_, ?_, ?_⟩
    · rw [s.get_put slot slot value pair small, if_pos rfl]
    · intro other _ apart
      rw [s.get_put slot other value pair small, if_neg apart]
    · intro i
      exact s.bit_put slot value i pair
    · exact padding_put whole sized inside
  · intro t _
    exact get_eq_iff_bit_eq

/-- Sixteen cells in bytes without a zero bit. The last of them is written beside the padding, and one that lies in
two bytes between its neighbours. The same bytes with another padding have the same cells. -/
theorem independent_cells_sixteen :
    let p : Precision := ⟨4, by decide, by decide⟩
    let s : Sextets := ⟨Array.replicate 13 255⟩
    let t : Sextets := ⟨(Array.replicate 12 255).push 0⟩
    s.bytes.size = byteCount p.size ∧ t.bytes.size = byteCount p.size ∧
      s.put? 15 21 = some ⟨(Array.replicate 11 255).push 87 |>.push 255⟩ ∧
      (s.put 15 21).get 15 = 21 ∧ (s.put 15 21).get 14 = 63 ∧ (s.put 15 21).padding p.size = 255 ∧
      s.put? 13 21 = some ⟨(Array.replicate 9 255).push 127 |>.push 245 |>.push 255 |>.push 255⟩ ∧
      s.padding p.size ≠ t.padding p.size ∧ ∀ i < 96, s.bit i = t.bit i := by
  intro p s t
  have sized : s.bytes.size = byteCount p.size := by decide
  have sized' : t.bytes.size = byteCount p.size := by decide
  obtain ⟨cells, bits⟩ := independent_cells sized
  obtain ⟨_, written⟩ := cells 15 (by decide)
  obtain ⟨⟨stored, _⟩, held, others, _, padding⟩ := written 21 (by decide)
  obtain ⟨_, between⟩ := cells 13 (by decide)
  refine ⟨sized, sized', ?_, held, ?_, ?_, ?_, by decide, ?_⟩
  · rw [stored]
    decide
  · rw [others 14 (by decide) (by decide)]
    decide
  · rw [padding]
    decide
  · rw [(between 21 (by decide)).1.1]
    decide
  · exact (bits t sized').mp (by decide)

end DistinctCount.Sextets
