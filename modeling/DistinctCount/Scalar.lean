/-! The arithmetic that counters and estimates are written in. A sketch runs it on binary64 numbers;
an exact ordered field reads the same definitions without rounding. -/

namespace DistinctCount

/-- Field operations, an order, and the three ways in which a constant enters a formula. -/
class Scalar (α : Type) extends Add α, Sub α, Mul α, Div α, Neg α, LE α, LT α where
  ofNat : Nat → α
  /-- The number `mantissa / 10 ^ places`. -/
  decimal : (mantissa places : Nat) → α
  /-- The number `2 ^ (-exponent)`, for exponents below 1023. -/
  halfPow : (exponent : Nat) → α
  decideLE : DecidableLE α
  decideLT : DecidableLT α

attribute [reducible, instance] Scalar.decideLE Scalar.decideLT

/-- A scalar with the two functions that leave the rationals. -/
class Analytic (α : Type) extends Scalar α where
  sqrt : α → α
  log : α → α

namespace Scalar

variable {α : Type} [Scalar α]

/-- The larger of two scalars. A scalar that is unordered even to itself gives way to the other,
and of two equal ones the second is kept. -/
def larger (a b : α) : α :=
  if b < a then a else if b ≤ b then b else a

/-- The distance of a scalar from zero. -/
def magnitude (a : α) : α :=
  if a < ofNat 0 then -a else a

end Scalar

instance : Analytic Float where
  ofNat n := Float.ofNat n
  decimal mantissa places := Float.ofScientific mantissa true places
  halfPow exponent := Float.ofBits (UInt64.ofNat (1023 - exponent) <<< 52)
  decideLE := inferInstance
  decideLT := inferInstance
  sqrt := Float.sqrt
  log := Float.log

end DistinctCount
