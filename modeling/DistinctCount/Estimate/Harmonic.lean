import DistinctCount.Scalar

namespace DistinctCount.Harmonic

section Exact

variable {α : Type} [Scalar α]

/-- The sum `1 + 1/2 + … + 1/n`, added up from its first term. -/
def exact : Nat → α
  | 0 => Scalar.ofNat 0
  | n + 1 => exact n + Scalar.ofNat 1 / Scalar.ofNat (n + 1)

def asymptoticFrom : Nat := 25

/-- The difference of a harmonic number to its logarithmic part is this constant in the limit. -/
def eulerMascheroni : α := Scalar.decimal 5772156649015329 16

end Exact

variable {α : Type} [Analytic α]

/-- The expansion `ln n + γ + 1/(2n) - 1/(12n²) + 1/(120n⁴) - 1/(252n⁶)`. -/
def asymptotic (n : Nat) : α :=
  let one : α := Scalar.ofNat 1
  let x : α := Scalar.ofNat n
  let inverseSquare := one / (x * x)
  let series := inverseSquare * (one / Scalar.ofNat 12
    - inverseSquare * (one / Scalar.ofNat 120 - inverseSquare * (one / Scalar.ofNat 252)))
  Analytic.log x + eulerMascheroni + one / (Scalar.ofNat 2 * x) - series

def number (n : Nat) : α :=
  if n < asymptoticFrom then exact n else asymptotic n

/-- The expected number of items thrown into `size` registers that leave `unhit` of them empty. -/
def itemsForUnhit (size unhit : Nat) : α :=
  Scalar.ofNat size * (number size - number unhit)

end DistinctCount.Harmonic
