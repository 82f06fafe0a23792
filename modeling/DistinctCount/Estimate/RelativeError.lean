import DistinctCount.Precision
import DistinctCount.Scalar
import DistinctCount.Width

namespace DistinctCount

/-- Which end of an interval of confidence. -/
inductive Side where
  | lower
  | upper
deriving DecidableEq

namespace RelativeError

/-- Sketches up to this precision have measured quantiles. -/
def measuredUpTo : Nat := 12

/-- Quantiles of the historic estimate below the true count, in units of `10 ^ (-9)`: for each
precision from 4 on, those of one, two and three standard deviations. -/
def historicLower : Array Nat := #[
  207316195, 502865572, 882303765,
  146981579, 335426881, 557052000,
  104026721, 227683872, 365888317,
  73614601, 156781585, 245740374,
  52052480, 108783763, 168030442,
  36770852, 75727545, 115937850,
  25990219, 53145536, 80772263,
  18373987, 37266176, 56271814,
  12936253, 26138290, 39387631]

def historicUpper : Array Nat := #[
  207805347, 355574279, 475535095,
  146988328, 262390832, 360864026,
  103877775, 191503663, 269311582,
  73452978, 138513438, 198487447,
  51982806, 99703123, 144128618,
  36768609, 71381580, 104430324,
  25991325, 50854296, 74814300,
  18345330, 36121138, 53276160,
  12920332, 25572893, 37896952]

def compositeLower : Array Nat := #[
  254409839, 682266712, 1304022158,
  181817353, 443389054, 778776219,
  129432281, 295782195, 492522790,
  91640655, 201175925, 323664385,
  64858051, 138523393, 218805328,
  45851855, 95925072, 148635751,
  32454144, 67009668, 102660669,
  22921382, 46868565, 71307398,
  16155679, 32825719, 49677541]

def compositeUpper : Array Nat := #[
  256980172, 411905944, 526510570,
  182332109, 310275547, 412660505,
  129314228, 230142294, 315636197,
  91584836, 168340130, 236346847,
  64874110, 122045231, 174112107,
  45914650, 87845050, 126917615,
  32433119, 62897613, 91862929,
  22960633, 44875401, 65736049,
  16186662, 31827816, 46973459]

def quantiles (side : Side) (outOfOrder : Bool) : Array Nat :=
  match side, outOfOrder with
  | .lower, false => historicLower
  | .upper, false => historicUpper
  | .lower, true => compositeLower
  | .upper, true => compositeUpper

def quantileIndex (p : Precision) (deviation : Deviation) : Nat :=
  (p.lg - 4) * 3 + (deviation.toNat - 1)

/-- The sign of an error: the bound is the estimate divided by one plus the error, so errors of lower
bounds are positive and errors of upper bounds negative. -/
def signed {α : Type} [Scalar α] (side : Side) (a : α) : α :=
  match side with
  | .lower => a
  | .upper => -a

/-- The standard error times the square root of the number of registers: `sqrt (log 2)` for the historic
estimate and `sqrt (3 * log 2 - 1)` for the composite one. -/
def factor {α : Type} [Scalar α] (outOfOrder : Bool) : α :=
  if outOfOrder then Scalar.decimal 103896 5 else Scalar.decimal 8325546 7

end RelativeError

def relativeError {α : Type} [Analytic α] (side : Side) (outOfOrder : Bool) (p : Precision)
    (deviation : Deviation) : α :=
  if p.lg ≤ RelativeError.measuredUpTo then
    let quantile := (RelativeError.quantiles side outOfOrder).getD
      (RelativeError.quantileIndex p deviation) 0
    RelativeError.signed side (Scalar.decimal quantile 9)
  else
    RelativeError.signed side (Scalar.ofNat deviation.toNat) * RelativeError.factor outOfOrder
      / Analytic.sqrt (Scalar.ofNat p.size)

end DistinctCount
