import DistinctCount.Scalar

/-! Interpolation in a table of points: the cubic through four neighbouring points. A table is given by
its size and by its coordinates as functions of the index. -/

namespace DistinctCount.Interpolation

section Search

variable {α : Type} [LE α] [DecidableLE α]

/-- Halves the gap between two indices until they are neighbours, and gives the lower one. The abscissa
`x` stays at or right of the lower point and left of the upper one. -/
@[specialize]
def bisect (xs : Nat → α) (x : α) (low high : Nat) : Nat :=
  if low + 1 < high then
    let middle := low + (high - low) / 2
    if xs middle ≤ x then bisect xs x middle high else bisect xs x low middle
  else low
termination_by high - low

/-- The index of the last point of a table of `size` points that is at or left of `x`. -/
@[specialize]
def straddle (xs : Nat → α) (size : Nat) (x : α) : Nat :=
  bisect xs x 0 (size - 1)

end Search

/-- The first of four points around the interval that starts at `index`, in the middle where the
table allows it. -/
def windowStart (index size : Nat) : Nat :=
  if index = 0 then 0
  else if size - 2 ≤ index then size - 4
  else index - 1

variable {α : Type} [Scalar α]

/-- The term of the cubic that carries the ordinate of point `i` of four. -/
@[specialize]
def term (xs ys : Nat → α) (x : α) (i : Nat) : α :=
  [0, 1, 2, 3].foldl (fun product j => if i = j then product else product * ((x - xs j) / (xs i - xs j)))
    (ys i)

/-- The value at `x` of the cubic through points 0 to 3. -/
@[specialize]
def cubic (xs ys : Nat → α) (x : α) : α :=
  [0, 1, 2, 3].foldl (fun sum i => sum + term xs ys x i) (Scalar.ofNat 0)

/-- The ordinate at `x`, which lies between the first and the last of `size` points. -/
@[specialize]
def interpolate (xs ys : Nat → α) (size : Nat) (x : α) : α :=
  if x ≤ xs (size - 1) ∧ xs (size - 1) ≤ x then ys (size - 1)
  else
    let start := windowStart (straddle xs size x) size
    cubic (fun i => xs (start + i)) (fun i => ys (start + i)) x

/-- The ordinate at `x` where ordinates are the multiples of `stride`. -/
@[specialize]
def interpolateEven (xs : Nat → α) (stride : α) (size : Nat) (x : α) : α :=
  interpolate xs (fun i => stride * Scalar.ofNat i) size x

end DistinctCount.Interpolation
