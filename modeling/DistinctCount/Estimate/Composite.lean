import DistinctCount.Estimate.BiasTable
import DistinctCount.Estimate.Harmonic
import DistinctCount.Estimate.Interpolation
import DistinctCount.Estimate.RelativeError
import DistinctCount.Tally

/-! Estimates from the tally of the registers alone, and the bounds of estimates from registers. -/

namespace DistinctCount.Composite

section

variable {α : Type} [Scalar α]

/-- The factor that makes the harmonic mean of the registers unbiased. -/
def correction (p : Precision) : α :=
  match p.lg with
  | 4 => Scalar.decimal 673 3
  | 5 => Scalar.decimal 697 3
  | 6 => Scalar.decimal 709 3
  | _ => Scalar.decimal 7213 4 / (Scalar.ofNat 1 + Scalar.decimal 1079 3 / Scalar.ofNat p.size)

/-- The corrected harmonic mean of the registers for a given sum of `2 ^ (-v)`. -/
def rawEstimate (p : Precision) (sum : α) : α :=
  let size : α := Scalar.ofNat p.size
  correction p * size * size / sum

def lastPoint : Nat := BiasTable.rowSize - 1

/-- A raw estimate read through the bias table: zero left of the table, and on the line through the
origin and the last point right of it. -/
def corrected (p : Precision) (raw : α) : α :=
  let stride : α := Scalar.ofNat (BiasTable.stride p)
  if raw < BiasTable.raw p 0 then Scalar.ofNat 0
  else if BiasTable.raw p lastPoint < raw then
    raw * (stride * Scalar.ofNat lastPoint / BiasTable.raw p lastPoint)
  else Interpolation.interpolateEven (BiasTable.raw p) stride BiasTable.rowSize raw

/-- The registers that are known to be untouched. -/
def unhit (tally : Tally α) : Nat :=
  if tally.base = 0 then tally.atBase else 0

/-- The share of the registers below which untouched registers tell more than register values. -/
def crossover (p : Precision) : α :=
  match p.lg with
  | 4 => Scalar.decimal 718 3
  | 5 => Scalar.decimal 672 3
  | _ => Scalar.decimal 64 2

end

variable {α : Type} [Analytic α]

/-- The estimate from the number of untouched registers. With none left it is the logarithm that half
an untouched register would give. -/
def linearEstimate (p : Precision) (tally : Tally α) : α :=
  if unhit tally = 0 then
    Scalar.ofNat p.size * Analytic.log (Scalar.ofNat p.size / Scalar.decimal 5 1)
  else Harmonic.itemsForUnhit p.size (unhit tally)

/-- The estimate of a sketch that is out of order. The mean of both candidates is held against the
crossover, which has less bias than a switch on either of them. -/
def estimate (p : Precision) (tally : Tally α) : α :=
  let raw := rawEstimate p tally.sum
  let adjusted := corrected p raw
  if raw < BiasTable.raw p 0 then Scalar.ofNat 0
  else if BiasTable.raw p lastPoint < raw then adjusted
  else if Scalar.ofNat 3 * Scalar.ofNat p.size < adjusted then adjusted
  else
    let linear := linearEstimate p tally
    if crossover p * Scalar.ofNat p.size < (adjusted + linear) / Scalar.ofNat 2 then adjusted
    else linear

/-- The registers that are known to have been hit. -/
def hit (p : Precision) (tally : Tally α) : Nat := p.size - unhit tally

/-- The lower bound of an estimate, never below the number of registers that were hit. -/
def lowerBound (p : Precision) (tally : Tally α) (outOfOrder : Bool) (deviation : Deviation)
    (estimate : α) : α :=
  Scalar.larger (estimate / (Scalar.ofNat 1 + relativeError .lower outOfOrder p deviation))
    (Scalar.ofNat (hit p tally))

def upperBound (p : Precision) (outOfOrder : Bool) (deviation : Deviation) (estimate : α) : α :=
  estimate / (Scalar.ofNat 1 + relativeError .upper outOfOrder p deviation)

end DistinctCount.Composite
