import DistinctCount.Estimate.Interpolation
import DistinctCount.Width

/-! The estimate from distinct coupons. Coupons collide once the items approach the number of possible
coupons, so a count of coupons stands for a slightly larger count of items. -/

namespace DistinctCount.CouponCurve

/-- Points of the curve: a count of coupons, and the count of items that gives it on average as
mantissa and decimal places. -/
def points : Array (Nat × Nat × Nat) := #[
  (0, 0, 0), (1, 1, 0), (20, 2000000094374026, 14), (400, 4000003963713384, 13),
  (8000, 8000158929460209, 12), (160000, 16006360677637596, 11), (300000, 30022370715976635, 11),
  (600000, 600895593385617, 9), (900000, 9020168065120955, 10), (1200000, 1203588498319951, 9),
  (1500000, 15056118245524743, 10), (1800000, 18080879449319066, 10),
  (2100000, 21110180231759353, 10), (2400000, 241440322701425, 8), (2700000, 2718244728205189, 9),
  (3000000, 3022543702552454, 9), (3300000, 3327301329921909, 9), (3600000, 3632518794258454, 9),
  (3900000, 3938197283602969, 9), (4200000, 4244337990109356, 9), (4500000, 4550942110061649, 9),
  (4800000, 4858010843891189, 9), (5100000, 5165545396193897, 9), (5400000, 5473546975747645, 9),
  (5700000, 57820167955296505, 10), (6000000, 6090956072734016, 9), (6300000, 6400366028789296, 9),
  (6600000, 6710247889376201, 9), (6900000, 7020602884445314, 9), (7200000, 7331432248234972, 9),
  (7500000, 7642737219289148, 9), (7800000, 79545190404754765, 10), (8100000, 8266778959003342, 9),
  (8400000, 8579518226442046, 9), (8700000, 8892738098739047, 9), (9000000, 9206439836238328, 9),
  (9300000, 9520624703698829, 9), (9600000, 983529397031292, 8), (9900000, 10150448909725029, 9),
  (10200000, 10466090800050326, 9)]

section

variable {α : Type} [Scalar α]

def coupons (index : Nat) : α :=
  Scalar.ofNat (points.getD index (0, 0, 0)).1

def items (index : Nat) : α :=
  let (mantissa, places) := (points.getD index (0, 0, 0)).2
  Scalar.decimal mantissa places

def mapped (count : α) : α :=
  Interpolation.interpolate coupons items points.size count

def relativeError : α := Scalar.decimal 409 3 / Scalar.ofNat 8192

/-- The estimate from `count` distinct coupons, never below their number. -/
def estimate (count : Nat) : α :=
  let n : α := Scalar.ofNat count
  Scalar.larger n (mapped n)

def lowerBound (count : Nat) (deviation : Deviation) : α :=
  let n : α := Scalar.ofNat count
  Scalar.larger n (mapped n / (Scalar.ofNat 1 + Scalar.ofNat deviation.toNat * relativeError))

def upperBound (count : Nat) (deviation : Deviation) : α :=
  let n : α := Scalar.ofNat count
  Scalar.larger n (mapped n / (Scalar.ofNat 1 - Scalar.ofNat deviation.toNat * relativeError))

end

end DistinctCount.CouponCurve
