import DistinctCount.Proofs.Exactness
import DistinctCount.Proofs.Packing
import Mathlib.Algebra.Order.BigOperators.Group.List
import Mathlib.Tactic.Ring

namespace DistinctCount.Binary64

open Float.Model (Format UnpackedFloat totalExponent)
open Float.Model.UnpackedFloat

variable {mantissa n m shift : Nat} {exponent : Int}

theorem log2_mul_two_pow (positive : 0 < n) (shift : Nat) : (n * 2 ^ shift).log2 = n.log2 + shift := by
  have size := Nat.two_pow_pos shift
  obtain ⟨least, bound⟩ := (Nat.log2_eq_iff (Nat.ne_of_gt positive)).mp rfl
  refine (Nat.log2_eq_iff (Nat.ne_of_gt (Nat.mul_pos positive size))).mpr ⟨?_, ?_⟩
  · rw [Nat.pow_add]
    exact Nat.mul_le_mul_right _ least
  · rw [Nat.add_right_comm, Nat.pow_add]
    exact Nat.mul_lt_mul_of_pos_right bound size

theorem targetExponent_eq (exponent : Int) (positive : 0 < n) (low : -1074 ≤ n.log2 + exponent - 52) (shift : Nat) :
    Format.binary64.targetExponent (totalExponent (n * 2 ^ shift) (exponent - shift)) =
      n.log2 + exponent - 52 := by
  have least : Format.binary64.minExponent = -1074 := rfl
  have digits : Format.binary64.mantissaBits = 53 := rfl
  rw [totalExponent, log2_mul_two_pow positive, Format.targetExponent, least, digits]
  omega

private theorem shiftRight_exact (mantissa shift : Nat) :
    (⟨mantissa * 2 ^ shift, false, false⟩ : ExtendedMantissa) >>> shift = ⟨mantissa, false, false⟩ := by
  induction shift generalizing mantissa with
  | zero => simp [HShiftRight.hShiftRight, Nat.repeat]
  | succ shift ih =>
    have doubled := ih (mantissa * 2)
    simp only [HShiftRight.hShiftRight] at doubled ⊢
    rw [Nat.repeat, show mantissa * 2 ^ (shift + 1) = mantissa * 2 * 2 ^ shift by ring, doubled]
    simp [ExtendedMantissa.shiftRightOne]

private theorem shiftToTargetExponent_exact (positive : 0 < mantissa) (digits : mantissa.log2 = 52)
    (low : -1074 ≤ exponent) (shift : Nat) :
    shiftToTargetExponent Format.binary64 (mantissa * 2 ^ shift) (exponent - shift) .exact =
      (⟨mantissa, false, false⟩, exponent) := by
  have target := targetExponent_eq exponent positive (by omega) shift
  have amount : (mantissa.log2 + exponent - 52 - (exponent - shift)).toNat = shift := by omega
  rw [shiftToTargetExponent, target, shiftToExponent, amount]
  refine Prod.ext (shiftRight_exact mantissa shift) ?_
  simp

/-- Zeros behind a mantissa of full length are dropped without loss. -/
theorem roundWithAccuracy_exact (sign : Sign) (exponent : Int) (positive : 0 < mantissa) (digits : mantissa.log2 = 52)
    (low : -1074 ≤ exponent) (shift : Nat) :
    roundWithAccuracy Format.binary64 sign (mantissa * 2 ^ shift) (exponent - shift) .exact =
      .finite sign mantissa exponent positive := by
  have again := shiftToTargetExponent_exact positive digits low 0
  simp only [Nat.pow_zero, Nat.mul_one, Nat.cast_zero, sub_zero] at again
  unfold roundWithAccuracy
  simp only [shiftToTargetExponent_exact positive digits low shift]
  have kept : ExtendedMantissa.roundedMantissa ⟨mantissa, false, false⟩ = mantissa := rfl
  simp only [kept, again]
  exact dif_neg (Nat.ne_of_gt positive)

/-- The number `n * 2 ^ exponent`, its leading digit in place. -/
def dyadic (n : Nat) (exponent : Int) : UnpackedFloat :=
  if positive : 0 < n then
    .finite .positive (n * 2 ^ (52 - n.log2)) (exponent - (52 - n.log2 : Nat))
      (Nat.mul_pos positive (Nat.two_pow_pos _))
  else .zero .positive

theorem dyadic_of_pos (positive : 0 < n) (exponent : Int) : dyadic n exponent =
    .finite .positive (n * 2 ^ (52 - n.log2)) (exponent - (52 - n.log2 : Nat))
      (Nat.mul_pos positive (Nat.two_pow_pos _)) := dif_pos positive

theorem dyadic_zero (exponent : Int) : dyadic 0 exponent = .zero .positive := rfl

theorem log2_le (positive : 0 < n) (bound : n < 2 ^ 53) : n.log2 ≤ 52 :=
  Nat.le_of_lt_succ ((Nat.log2_lt (Nat.ne_of_gt positive)).mpr bound)

theorem round_dyadic (positive : 0 < n) (bound : n < 2 ^ 53) (low : -1000 ≤ exponent) (shift : Nat) :
    round Format.binary64 .positive (n * 2 ^ shift) (exponent - shift) = dyadic n exponent := by
  have length := log2_le positive bound
  have target := targetExponent_eq exponent positive (by omega) shift
  have digits : (n * 2 ^ (52 - n.log2)).log2 = 52 := by
    rw [log2_mul_two_pow positive]
    omega
  have full : 0 < n * 2 ^ (52 - n.log2) := Nat.mul_pos positive (Nat.two_pow_pos _)
  have rounded := roundWithAccuracy_exact .positive (exponent - (52 - n.log2 : Nat)) full digits
    (by omega) (shift - (52 - n.log2))
  rw [dyadic_of_pos positive, ← rounded]
  unfold UnpackedFloat.round
  simp only [target, decreaseExponent, Nat.shiftLeft_eq]
  congr 1
  · rw [Nat.mul_assoc, Nat.mul_assoc, ← Nat.pow_add, ← Nat.pow_add]
    congr 2
    omega
  · omega

theorem unpack_pack_dyadic (bound : n < 2 ^ 53) (low : -1000 ≤ exponent) (high : exponent ≤ 900) :
    unpack Format.binary64 (pack Format.binary64 (dyadic n exponent)) = dyadic n exponent := by
  rcases Nat.eq_zero_or_pos n with rfl | positive
  · rw [dyadic_zero]
    rfl
  · have length := log2_le positive bound
    have digits : (n * 2 ^ (52 - n.log2)).log2 = 52 := by
      rw [log2_mul_two_pow positive]
      omega
    have full : 0 < n * 2 ^ (52 - n.log2) := Nat.mul_pos positive (Nat.two_pow_pos _)
    obtain ⟨least, most⟩ := (Nat.log2_eq_iff (Nat.ne_of_gt full)).mp digits
    rw [dyadic_of_pos positive]
    exact unpack_pack_normal least most (by omega) (by omega) full

theorem dyadic_shift (n shift : Nat) (exponent : Int) (fits : n * 2 ^ shift < 2 ^ 53) :
    dyadic (n * 2 ^ shift) (exponent - shift) = dyadic n exponent := by
  rcases Nat.eq_zero_or_pos n with rfl | positive
  · rw [Nat.zero_mul, dyadic_zero, dyadic_zero]
  · have scaled : 0 < n * 2 ^ shift := Nat.mul_pos positive (Nat.two_pow_pos _)
    have length := log2_le scaled fits
    rw [log2_mul_two_pow positive] at length
    rw [dyadic_of_pos positive, dyadic_of_pos scaled]
    simp only [log2_mul_two_pow positive]
    congr 1
    · rw [Nat.mul_assoc, ← Nat.pow_add]
      congr 2
      omega
    · omega

private theorem normalize_dyadic (exponent : Int) (bound : n < 2 ^ 53) (low : -1000 ≤ exponent) (shift : Nat) :
    normalize Format.binary64 ((n * 2 ^ shift : Nat) : Int) (exponent - shift) .positive =
      dyadic n exponent := by
  rcases Nat.eq_zero_or_pos n with rfl | positive
  · rw [Nat.zero_mul]
    rfl
  · have above : compare ((n * 2 ^ shift : Nat) : Int) 0 = .gt := by
      rw [Int.compare_eq_gt]
      exact Int.natCast_pos.mpr (Nat.mul_pos positive (Nat.two_pow_pos _))
    rw [UnpackedFloat.normalize, above]
    exact round_dyadic positive bound low shift

/-- Two numbers with the leading digit in place, brought to a common exponent. -/
private theorem aligned (n : Nat) (exponent : Int) {common : Nat} (enough : 52 - n.log2 ≤ common) :
    (decreaseExponent (n * 2 ^ (52 - n.log2)) (exponent - (52 - n.log2 : Nat))
      (exponent - common)).1 = n * 2 ^ common := by
  have amount : (exponent - (52 - n.log2 : Nat) - (exponent - common)).toNat =
      common - (52 - n.log2) := by omega
  rw [decreaseExponent, amount, Nat.shiftLeft_eq, Nat.mul_assoc, ← Nat.pow_add,
    Nat.add_sub_cancel' enough]

theorem add_dyadic (bound : n + m < 2 ^ 53) (low : -1000 ≤ exponent) :
    add Format.binary64 (dyadic n exponent) (dyadic m exponent) = dyadic (n + m) exponent := by
  rcases Nat.eq_zero_or_pos n with rfl | left
  · rw [Nat.zero_add]
    rcases Nat.eq_zero_or_pos m with rfl | right
    · rfl
    · rw [dyadic_of_pos right]
      rfl
  · rcases Nat.eq_zero_or_pos m with rfl | right
    · rw [Nat.add_zero, dyadic_of_pos left]
      rfl
    · let common := max (52 - n.log2) (52 - m.log2)
      have lower : min (exponent - (52 - n.log2 : Nat)) (exponent - (52 - m.log2 : Nat)) =
          exponent - common := by omega
      have total : Sign.positive.apply (n * 2 ^ common : Nat) +
          Sign.positive.apply (m * 2 ^ common : Nat) = (((n + m) * 2 ^ common : Nat) : Int) := by
        rw [Nat.add_mul]
        rfl
      rw [dyadic_of_pos left, dyadic_of_pos right, ← normalize_dyadic exponent bound low common, ← total]
      simp only [add, lower, aligned n exponent (Nat.le_max_left _ _),
        aligned m exponent (Nat.le_max_right _ _), common]

theorem sub_dyadic (bound : n + m < 2 ^ 53) (low : -1000 ≤ exponent) :
    sub Format.binary64 (dyadic (n + m) exponent) (dyadic m exponent) = dyadic n exponent := by
  rcases Nat.eq_zero_or_pos m with rfl | right
  · rcases Nat.eq_zero_or_pos n with rfl | left
    · rfl
    · rw [Nat.add_zero, dyadic_of_pos left]
      rfl
  · have left : 0 < n + m := Nat.add_pos_right n right
    let common := max (52 - (n + m).log2) (52 - m.log2)
    have lower : min (exponent - (52 - (n + m).log2 : Nat)) (exponent - (52 - m.log2 : Nat)) =
        exponent - common := by omega
    have rest : Sign.positive.apply ((n + m) * 2 ^ common : Nat) -
        Sign.positive.apply (m * 2 ^ common : Nat) = ((n * 2 ^ common : Nat) : Int) := by
      rw [Nat.add_mul]
      simp only [Sign.apply]
      omega
    rw [dyadic_of_pos left, dyadic_of_pos right,
      ← normalize_dyadic (n := n) exponent (by omega) low common, ← rest]
    simp only [sub, lower, aligned (n + m) exponent (Nat.le_max_left _ _),
      aligned m exponent (Nat.le_max_right _ _), common]

/-- The binary64 number `n * 2 ^ exponent`. -/
def ofDyadic (n : Nat) (exponent : Int) : Float := .ofModel (.pack (dyadic n exponent))

theorem unpack_ofDyadic (bound : n < 2 ^ 53) (low : -1000 ≤ exponent) (high : exponent ≤ 900) :
    (ofDyadic n exponent).toModel.unpack = dyadic n exponent :=
  unpack_pack_dyadic bound low high

theorem ofDyadic_add (bound : n + m < 2 ^ 53) (low : -1000 ≤ exponent) (high : exponent ≤ 900) :
    ofDyadic n exponent + ofDyadic m exponent = ofDyadic (n + m) exponent := by
  have left := unpack_ofDyadic (n := n) (by omega) low high
  have right := unpack_ofDyadic (n := m) (by omega) low high
  refine congrArg (fun value => Float.ofModel (.pack value)) ?_
  rw [left, right, add_dyadic bound low]

theorem ofDyadic_sub (bound : n + m < 2 ^ 53) (low : -1000 ≤ exponent) (high : exponent ≤ 900) :
    ofDyadic (n + m) exponent - ofDyadic m exponent = ofDyadic n exponent := by
  have left := unpack_ofDyadic (n := n + m) (by omega) low high
  have right := unpack_ofDyadic (n := m) (by omega) low high
  refine congrArg (fun value => Float.ofModel (.pack value)) ?_
  rw [left, right, sub_dyadic bound low]

theorem ofDyadic_shift (n shift : Nat) (exponent : Int) (fits : n * 2 ^ shift < 2 ^ 53) :
    ofDyadic (n * 2 ^ shift) (exponent - shift) = ofDyadic n exponent := by
  rw [ofDyadic, dyadic_shift n shift exponent fits, ofDyadic]

private theorem mul_one_dyadic (bound : n < 2 ^ 53) (low : -1000 ≤ exponent) :
    mul Format.binary64 (dyadic n exponent) (dyadic 1 0) = dyadic n exponent := by
  rcases Nat.eq_zero_or_pos n with rfl | positive
  · rfl
  · have length := log2_le positive bound
    have digits : (n * 2 ^ (52 - n.log2)).log2 = 52 := by
      rw [log2_mul_two_pow positive]
      omega
    have full : 0 < n * 2 ^ (52 - n.log2) := Nat.mul_pos positive (Nat.two_pow_pos _)
    rw [dyadic_of_pos positive]
    exact roundWithAccuracy_exact .positive _ full digits (by omega) 52

theorem ofNat_eq (bound : n < 2 ^ 53) : Float.ofNat n = ofDyadic n 0 := by
  have word : n.toUInt64.toNat = n := by
    rw [Nat.toUInt64, UInt64.toNat_ofNat']
    omega
  have converted : n.toUInt64.toFloat = ofDyadic n 0 := by
    have shown := normalize_dyadic 0 bound (by decide) 0
    simp only [Nat.pow_zero, Nat.mul_one, Nat.cast_zero, sub_zero] at shown
    refine congrArg (fun value => Float.ofModel (.pack value)) ?_
    rw [ofUInt64, ofNat, ofInt, word, shown]
  have one : Float.ofBits 0x3FF0000000000000 = ofDyadic 1 0 := by decide +kernel
  have scaled : Float.ofNat n = n.toUInt64.toFloat * Float.ofBits 0x3FF0000000000000 :=
    dif_pos ⟨bound, by decide⟩
  rw [scaled, converted, one]
  refine congrArg (fun value => Float.ofModel (.pack value)) ?_
  rw [unpack_ofDyadic bound (by decide) (by decide),
    unpack_ofDyadic (by decide) (by decide) (by decide), mul_one_dyadic bound (by decide)]

theorem halfPow_eq : ∀ value ≤ Coupon.maxValue,
    (Scalar.halfPow value : Float) = ofDyadic 1 (-value) := by
  decide +kernel

/-- The least power of two that is needed for the values of a part of a tally. -/
def deepest (high : Bool) : Nat := if high then 63 else 31

/-- A contribution in multiples of that power. -/
def weight (high : Bool) (value : Nat) : Nat := 2 ^ (deepest high - value)

variable {high : Bool} {value : Nat} {values : List Nat}

theorem weight_le (counts : Tally.inPart high value) : weight high value ≤ 2 ^ 31 := by
  refine Nat.pow_le_pow_right Nat.two_pos ?_
  have divide : Tally.divide = 32 := rfl
  cases high <;> simp only [Tally.inPart, deepest, decide_eq_true_eq, if_true, if_false,
    Bool.false_eq_true] at counts ⊢ <;> omega

theorem le_deepest (limit : value ≤ Coupon.maxValue) (counts : Tally.inPart high value) :
    value ≤ deepest high := by
  have divide : Tally.divide = 32 := rfl
  have most : Coupon.maxValue = 63 := rfl
  cases high <;> simp only [Tally.inPart, deepest, decide_eq_true_eq, if_true, if_false,
    Bool.false_eq_true] at counts ⊢ <;> omega

theorem halfPow_eq_weight (limit : value ≤ Coupon.maxValue) (counts : Tally.inPart high value) :
    (Scalar.halfPow value : Float) = ofDyadic (weight high value) (-(deepest high : Int)) := by
  have small := weight_le counts
  have depth := le_deepest limit counts
  have scaled := ofDyadic_shift 1 (deepest high - value) (-value)
    (by rw [Nat.one_mul]; exact Nat.lt_of_le_of_lt small (by decide))
  rw [halfPow_eq value limit, ← scaled, Nat.one_mul, weight]
  congr 1
  omega

theorem sum_weight_le (fits : Tally.Fits values) (counts : ∀ v ∈ values, Tally.inPart high v) :
    (values.map (weight high)).sum ≤ 2 ^ 52 := by
  have each : ∀ w ∈ values.map (weight high), w ≤ 2 ^ 31 := by
    intro w member
    obtain ⟨v, present, rfl⟩ := List.mem_map.mp member
    exact weight_le (counts v present)
  calc (values.map (weight high)).sum ≤ (values.map (weight high)).length * 2 ^ 31 :=
        List.sum_le_card_nsmul _ _ each
    _ = values.length * 2 ^ 31 := by rw [List.length_map]
    _ ≤ 2 ^ 21 * 2 ^ 31 := Nat.mul_le_mul_right _ fits.few

theorem deepest_le (high : Bool) : deepest high ≤ 63 := by
  cases high <;> decide

/-- The sum of a part is as many multiples as its values contribute. -/
theorem sumOf_eq (fits : Tally.Fits values) (counts : ∀ v ∈ values, Tally.inPart high v) :
    (Tally.sumOf values : Float) =
      ofDyadic (values.map (weight high)).sum (-(deepest high : Int)) := by
  have depth := deepest_le high
  induction values using List.reverseRecOn with
  | nil => exact ofNat_eq (n := 0) (by decide)
  | append_singleton rest value ih =>
    have few : Tally.Fits rest := fits.sublist (List.sublist_append_left rest [value])
    have whole := sum_weight_le fits counts
    rw [List.map_append, List.sum_append, List.map_singleton, List.sum_singleton] at whole ⊢
    rw [Tally.sumOf_concat, ih few (fun v member => counts v (by simp [member])),
      halfPow_eq_weight (fits.bounded value (by simp)) (counts value (by simp)),
      ofDyadic_add (Nat.lt_of_le_of_lt whole (by decide)) (by omega) (by omega)]

instance : Tally.ExactSums Float where
  perm := by
    intro high values others fits counts perm
    rw [sumOf_eq fits counts,
      sumOf_eq (fits.of_perm perm) (fun v member => counts v (perm.symm.subset member)),
      (perm.map _).sum_eq]
  sub := by
    intro high value values fits counts
    have depth := deepest_le high
    have whole := sum_weight_le fits counts
    rw [sumOf_eq fits counts, sumOf_eq fits.tail (fun v member => counts v (by simp [member])),
      halfPow_eq_weight (fits.bounded value (by simp)) (counts value (by simp))]
    rw [List.map_cons, List.sum_cons, Nat.add_comm] at whole ⊢
    exact ofDyadic_sub (Nat.lt_of_le_of_lt whole (by decide)) (by omega) (by omega)
  zeros := by
    intro count few
    have fits : Tally.Fits (List.replicate count 0) :=
      ⟨by simpa using few, fun v member => by rw [List.eq_of_mem_replicate member]; decide⟩
    have counts : ∀ v ∈ List.replicate count 0, Tally.inPart false v := by
      intro v member
      rw [List.eq_of_mem_replicate member]
      decide
    have total : ((List.replicate count 0).map (weight false)).sum = count * 2 ^ 31 := by
      rw [List.map_replicate, List.sum_replicate_nat]
      rfl
    have scaled := ofDyadic_shift count 31 0 (by omega)
    rw [sumOf_eq fits counts, total]
    exact scaled.trans (ofNat_eq (by omega)).symm

end DistinctCount.Binary64
