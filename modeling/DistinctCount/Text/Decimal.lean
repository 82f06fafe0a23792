import DistinctCount.Power

/-! Decimal text of binary64 numbers: the fewest digits that read back as the same number, and the ways
of writing them down. -/

namespace DistinctCount.Text

/-- The number `mantissa * 10 ^ exponent`. -/
structure Decimal where
  mantissa : Nat
  exponent : Int
deriving DecidableEq

namespace Decimal

def digitCount (n : Nat) : Nat := (toString n).length

/-- A positive number with the interval of numbers that round to it, as numerators over one
denominator. -/
structure Neighbourhood where
  value : Nat
  below : Nat
  above : Nat
  denominator : Nat
  /-- Whether the ends of the interval belong to it. -/
  closed : Bool

/-- The neighbourhood of `mantissa * 2 ^ exponent`. The neighbour below a power of two is nearer than
the one above. -/
def Neighbourhood.ofBinary (mantissa : Nat) (exponent : Int) : Neighbourhood :=
  let numerator := 2 ^ (exponent - 2).toNat
  { value := 4 * mantissa * numerator
    below := (4 * mantissa - if mantissa = 2 ^ 52 then 1 else 2) * numerator
    above := (4 * mantissa + 2) * numerator
    denominator := 2 ^ (2 - exponent).toNat
    closed := mantissa % 2 = 0 }

/-- The exponent of the least power of ten above the number. -/
def Neighbourhood.magnitude (n : Neighbourhood) : Int :=
  if n.denominator ≤ n.value then digitCount (n.value / n.denominator)
  else 1 - (digitCount ((n.denominator - 1) / n.value) : Int)

/-- A number of `digits` digits in the interval, the one that is nearest to its middle; of two that
are equally near, the larger. -/
def Neighbourhood.onGrid? (n : Neighbourhood) (digits : Nat) : Option Decimal :=
  let exponent := n.magnitude - digits
  let scale := 10 ^ (-exponent).toNat
  let unit := n.denominator * 10 ^ exponent.toNat
  let value := n.value * scale
  let floor := value / unit
  let holds (end₁ end₂ : Nat) : Bool := end₁ < end₂ || n.closed && end₁ = end₂
  let down := holds (n.below * scale) (floor * unit)
  let up := holds ((floor + 1) * unit) (n.above * scale)
  let upNearer : Bool := (floor + 1) * unit - value ≤ value - floor * unit
  if up && (!down || upNearer) then some ⟨floor + 1, exponent⟩
  else if down then some ⟨floor, exponent⟩
  else none

/-- Drops the zeros at the end of the mantissa. -/
def trimmed (d : Decimal) : Decimal :=
  let zeros := ((Nat.toDigits 10 d.mantissa).reverse.takeWhile (· = '0')).length
  ⟨d.mantissa / 10 ^ zeros, d.exponent + zeros⟩

/-- The most digits that any number needs. -/
def maxDigits : Nat := 17

/-- The shortest decimal that reads back as `mantissa * 2 ^ exponent`. -/
def shortest (mantissa : Nat) (exponent : Int) : Decimal :=
  let n := Neighbourhood.ofBinary mantissa exponent
  (((List.range' 1 maxDigits).findSome? n.onGrid?).getD ⟨mantissa, 0⟩).trimmed

/-- How decimals are written: which positions of the point are written without an exponent, and what
follows a whole number. -/
structure Style where
  positional : (point : Int) → Bool
  wholeSuffix : String

/-- Every number without an exponent, whole ones without a point. -/
def Style.plain : Style := ⟨fun _ => true, ""⟩

/-- Whole numbers with one zero behind the point; an exponent from `10 ^ 16` on and below `10 ^ (-4)`. -/
def Style.marked : Style := ⟨fun point => -4 < point && point ≤ 16, ".0"⟩

def zeros (count : Nat) : String := String.ofList (List.replicate count '0')

def render (style : Style) (d : Decimal) : String :=
  let digits := toString d.mantissa
  let count := digits.length
  let point := d.exponent + count
  let split (front : Nat) : String × String :=
    (String.ofList (digits.toList.take front), String.ofList (digits.toList.drop front))
  if style.positional point then
    if point ≤ 0 then "0." ++ zeros (-point).toNat ++ digits
    else if (count : Int) ≤ point then digits ++ zeros (point - count).toNat ++ style.wholeSuffix
    else
      let (front, back) := split point.toNat
      front ++ "." ++ back
  else
    let (front, back) := split 1
    front ++ (if back.isEmpty then "" else "." ++ back) ++ "e" ++ toString (point - 1)

end Decimal

/-- The text of a binary64 number. -/
def ofFloat (style : Decimal.Style) (x : Float) : String :=
  let bits := x.toBits.toNat
  let negative := 2 ^ 63 ≤ bits
  let biased : Nat := bits / 2 ^ 52 % 2048
  let fraction : Nat := bits % 2 ^ 52
  let sign := if negative then "-" else ""
  if biased = 2047 then
    if fraction = 0 then sign ++ "inf" else "NaN"
  else if biased = 0 ∧ fraction = 0 then sign ++ "0" ++ style.wholeSuffix
  else if biased = 0 then sign ++ (Decimal.shortest fraction (-1074)).render style
  else sign ++ (Decimal.shortest (2 ^ 52 + fraction) ((biased : Int) - 1075)).render style

end DistinctCount.Text
