namespace DistinctCount

/-- Packed cells, the one with the even index in the low half of its byte. -/
structure Nibbles where
  bytes : Array UInt8
deriving DecidableEq

namespace Nibbles

/-- The bytes that `size` cells take. -/
def byteCount (size : Nat) : Nat := size / 2

def zeros (size : Nat) : Nibbles := ⟨Array.replicate (byteCount size) 0⟩

def byte (n : Nibbles) (index : Nat) : Nat := (n.bytes.getD index 0).toNat

def get (n : Nibbles) (slot : Nat) : Nat :=
  if slot % 2 = 0 then n.byte (slot / 2) % 16 else n.byte (slot / 2) / 16

/-- Writes a cell and keeps the other half of its byte. -/
def put (n : Nibbles) (slot value : Nat) : Nibbles :=
  let byte := n.byte (slot / 2)
  let changed :=
    if slot % 2 = 0 then byte / 16 * 16 + value % 16 else value % 16 * 16 + byte % 16
  ⟨n.bytes.setIfInBounds (slot / 2) (UInt8.ofNat changed)⟩

theorem size_put (n : Nibbles) (slot value : Nat) : (n.put slot value).bytes.size = n.bytes.size := by
  simp [put]

/-- Only the half of one byte changes. -/
theorem byte_put (n : Nibbles) (slot value index : Nat) (inside : slot / 2 < n.bytes.size) :
    (n.put slot value).byte index =
      if index = slot / 2 then
        if slot % 2 = 0 then n.byte index / 16 * 16 + value % 16
        else value % 16 * 16 + n.byte index % 16
      else n.byte index := by
  have bound : n.byte (slot / 2) < 256 := UInt8.toNat_lt _
  simp only [put, byte, Array.getD_eq_getD_getElem?, Array.getElem?_setIfInBounds] at bound ⊢
  split <;> rename_i same
  · subst same
    simp only [if_true, Option.getD_some, UInt8.toNat_ofNat']
    split <;> omega
  · simp [Ne.symm same]

theorem get_put (n : Nibbles) (slot other value : Nat) (inside : slot / 2 < n.bytes.size)
    (bound : value < 16) :
    (n.put slot value).get other = if other = slot then value else n.get other := by
  simp only [get, byte_put n slot value _ inside]
  split <;> split <;> split <;> (try split) <;> omega

end Nibbles

end DistinctCount
