namespace DistinctCount

structure Octets where
  bytes : Array UInt8
deriving DecidableEq

namespace Octets

def zeros (size : Nat) : Octets := ⟨Array.replicate size 0⟩

def get (o : Octets) (slot : Nat) : Nat := (o.bytes.getD slot 0).toNat

def put (o : Octets) (slot value : Nat) : Octets :=
  ⟨o.bytes.setIfInBounds slot (UInt8.ofNat value)⟩

/-- The larger byte at each place of two arrays of one size. -/
def maxima (a b : Octets) : Octets :=
  ⟨Array.zipWith (fun x y => if x < y then y else x) a.bytes b.bytes⟩

theorem size_put (o : Octets) (slot value : Nat) : (o.put slot value).bytes.size = o.bytes.size := by
  simp [put]

theorem get_put (o : Octets) (slot other value : Nat) (inside : slot < o.bytes.size)
    (bound : value < 256) :
    (o.put slot value).get other = if other = slot then value else o.get other := by
  simp only [get, put, Array.getD_eq_getD_getElem?, Array.getElem?_setIfInBounds]
  split <;> rename_i same
  · subst same
    simp [Nat.mod_eq_of_lt bound]
  · simp [Ne.symm same]

theorem size_maxima (a b : Octets) (same : a.bytes.size = b.bytes.size) :
    (a.maxima b).bytes.size = a.bytes.size := by
  simp [maxima, same]

end Octets

end DistinctCount
