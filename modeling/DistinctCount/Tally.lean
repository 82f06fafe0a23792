import DistinctCount.Scalar

/-! Running sums over registers. The sum of `2 ^ (-v)` over all values `v` is kept in two parts, so
that the contributions of large values are not lost beside the others. -/

namespace DistinctCount

/-- What the estimators need to know of the registers. -/
structure Tally (α : Type) where
  /-- A value that no register is below. -/
  base : Nat
  /-- The number of registers that hold the base. -/
  atBase : Nat
  /-- The sum of `2 ^ (-v)` over values below the divide. -/
  low : α
  /-- The same sum over the other values. -/
  high : α
deriving DecidableEq

namespace Tally

variable {α : Type} [Scalar α]

/-- The least value that counts to the high sum. -/
def divide : Nat := 32

/-- The tally of `size` registers that all hold zero. -/
def zeros (size : Nat) : Tally α :=
  ⟨0, size, Scalar.ofNat size, Scalar.ofNat 0⟩

/-- The sum of `2 ^ (-v)` over all registers. -/
def sum (t : Tally α) : α := t.low + t.high

def add (t : Tally α) (value : Nat) : Tally α :=
  if value < divide then { t with low := t.low + Scalar.halfPow value }
  else { t with high := t.high + Scalar.halfPow value }

def remove (t : Tally α) (value : Nat) : Tally α :=
  if value < divide then { t with low := t.low - Scalar.halfPow value }
  else { t with high := t.high - Scalar.halfPow value }

/-- Moves the contribution of one register from its old value to its new one. -/
def replace (t : Tally α) (old new : Nat) : Tally α :=
  (t.remove old).add new

/-- The sum of `2 ^ (-v)` over the given values, from the first one on. -/
@[specialize]
def sumOf (values : List Nat) : α :=
  values.foldl (fun sum value => sum + Scalar.halfPow value) (Scalar.ofNat 0)

theorem sumOf_concat (values : List Nat) (value : Nat) :
    (sumOf (values ++ [value]) : α) = sumOf values + Scalar.halfPow value := by
  simp [sumOf]

/-- The tally of the given values. With `tracked` the base is the least of them, otherwise zero. -/
@[specialize]
def scan (tracked : Bool) (values : List Nat) : Tally α :=
  let base := if tracked then values.min?.getD 0 else 0
  { base := base
    atBase := values.count base
    low := sumOf (values.filter (· < divide))
    high := sumOf (values.filter (divide ≤ ·)) }

/-- The share by which the sums of an image may be off those of its registers. -/
def tolerance : α := Scalar.decimal 1 4

/-- Whether a stored tally counts the base as a scan does. -/
def sameBase (stored scanned : Tally α) : Bool :=
  stored.base = scanned.base && stored.atBase = scanned.atBase

/-- Whether a stored sum is as good as a scanned one. A sum that is no number never is. -/
def sameSum (stored scanned : Tally α) : Bool :=
  Scalar.magnitude (stored.sum - scanned.sum) ≤ tolerance * scanned.sum

end Tally

end DistinctCount
