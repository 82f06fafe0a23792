import DistinctCount.Power

namespace DistinctCount

/-- A requested precision that no sketch supports. -/
structure OutOfRange where
  /-- The name of the parameter as its user knows it. -/
  parameter : String
  got : Nat
deriving DecidableEq

def OutOfRange.message (fault : OutOfRange) : String :=
  fault.parameter ++ " must be in [4, 21], got " ++ toString fault.got

/-- A supported precision: a sketch has between `2 ^ 4` and `2 ^ 21` registers. -/
structure Precision where
  lg : Nat
  four_le : 4 ≤ lg
  le_twentyOne : lg ≤ 21
deriving DecidableEq

namespace Precision

/-- The number of registers. -/
def size (p : Precision) : Nat := 2 ^ p.lg

def ofNat? (lg : Nat) : Option Precision :=
  if h : 4 ≤ lg ∧ lg ≤ 21 then some ⟨lg, h.1, h.2⟩ else none

def check (parameter : String) (lg : Nat) : Except OutOfRange Precision :=
  match ofNat? lg with
  | some p => .ok p
  | none => .error ⟨parameter, lg⟩

/-- The coarser of two precisions. -/
instance : Min Precision := ⟨fun p q => if p.lg ≤ q.lg then p else q⟩

/-- The finer of two precisions. -/
instance : Max Precision := ⟨fun p q => if p.lg ≤ q.lg then q else p⟩

theorem size_pos (p : Precision) : 0 < p.size := Nat.two_pow_pos p.lg

theorem size_le (p : Precision) : p.size ≤ 2 ^ 21 := Nat.pow_le_pow_right Nat.two_pos p.le_twentyOne

theorem ofNat?_lg (p : Precision) : ofNat? p.lg = some p := by
  simp [ofNat?, p.four_le, p.le_twentyOne]

theorem lg_min (p q : Precision) : (min p q).lg = min p.lg q.lg := by
  simp only [min]
  split <;> simp_all

theorem lg_max (p q : Precision) : (max p q).lg = max p.lg q.lg := by
  simp only [max]
  split <;> simp_all

end Precision

end DistinctCount
