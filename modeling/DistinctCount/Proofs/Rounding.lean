import DistinctCount.Proofs.Dyadic

/-! Binary64 arithmetic that rounds, on numbers that are not below zero. What is rounded keeps its full
length, a sum is at least each summand, and sums and quotients of numbers of moderate size are positive
and finite. -/

namespace DistinctCount.Binary64

open Float.Model (Format UnpackedFloat totalExponent)
open Float.Model.UnpackedFloat

variable {mantissa m n : Nat} {exponent e e' : Int} {f g : UnpackedFloat} {x y : Float}

theorem mantissa_shiftRight (em : ExtendedMantissa) (shift : Nat) :
    (em >>> shift).mantissa = em.mantissa / 2 ^ shift := by
  simp only [HShiftRight.hShiftRight]
  induction shift with
  | zero => simp [Nat.repeat]
  | succ shift ih =>
    rw [Nat.repeat, ExtendedMantissa.shiftRightOne, ih, Nat.div_div_eq_div_mul, Nat.pow_succ]

theorem mantissa_ofMantissaAndAccuracy (mantissa : Nat) (accuracy : Accuracy) :
    (ExtendedMantissa.ofMantissaAndAccuracy mantissa accuracy).mantissa = mantissa := by
  cases accuracy with
  | exact => rfl
  | inexact order => cases order <;> rfl

theorem roundedMantissa_bounds (em : ExtendedMantissa) :
    em.mantissa ≤ em.roundedMantissa ∧ em.roundedMantissa ≤ em.mantissa + 1 := by
  obtain ⟨mantissa, round, sticky⟩ := em
  cases round <;> cases sticky <;>
    simp only [ExtendedMantissa.roundedMantissa, ExtendedMantissa.accuracy,
      Accuracy.roundToNearestEven] <;> omega

def leading (mantissa : Nat) : Nat := mantissa / 2 ^ (mantissa.log2 - 52)

theorem leading_bounds (long : 2 ^ 52 ≤ mantissa) :
    2 ^ 52 ≤ leading mantissa ∧ leading mantissa < 2 ^ 53 := by
  have nonzero : mantissa ≠ 0 := by omega
  have digits : 52 ≤ mantissa.log2 := (Nat.le_log2 nonzero).mpr long
  obtain ⟨least, most⟩ := (Nat.log2_eq_iff nonzero).mp rfl
  have unit := Nat.two_pow_pos (mantissa.log2 - 52)
  constructor
  · rw [leading, Nat.le_div_iff_mul_le unit, ← Nat.pow_add, Nat.add_sub_cancel' digits]
    exact least
  · rw [leading, Nat.div_lt_iff_lt_mul unit, ← Nat.pow_add,
      show 53 + (mantissa.log2 - 52) = mantissa.log2 + 1 by omega]
    exact most

theorem leading_of_fits (long : 2 ^ 52 ≤ mantissa) (fits : mantissa < 2 ^ 53) :
    leading mantissa = mantissa := by
  have digits : mantissa.log2 = 52 := (Nat.log2_eq_iff (by omega)).mpr ⟨long, fits⟩
  rw [leading, digits, Nat.sub_self, Nat.pow_zero, Nat.div_one]

/-- A number of full length or more is cut to its leading digits. -/
theorem shiftToTargetExponent_of_long (long : 2 ^ 52 ≤ mantissa) (low : -1074 ≤ exponent)
    (accuracy : Accuracy) :
    (shiftToTargetExponent Format.binary64 mantissa exponent accuracy).1.mantissa = leading mantissa ∧
      (shiftToTargetExponent Format.binary64 mantissa exponent accuracy).2 =
        exponent + (mantissa.log2 - 52 : Nat) := by
  have least : Format.binary64.minExponent = -1074 := rfl
  have bits : Format.binary64.mantissaBits = 53 := rfl
  have digits : 52 ≤ mantissa.log2 := (Nat.le_log2 (by omega)).mpr long
  have amount : (Format.binary64.targetExponent (totalExponent mantissa exponent) - exponent).toNat =
      mantissa.log2 - 52 := by
    rw [Format.targetExponent, totalExponent, least, bits]
    omega
  simp only [shiftToTargetExponent, shiftToExponent, amount, mantissa_shiftRight,
    mantissa_ofMantissaAndAccuracy, leading, and_self]

/-- A positive number whose leading digit is in place. -/
def Normal (f : UnpackedFloat) (mantissa : Nat) (exponent : Int) : Prop :=
  2 ^ 52 ≤ mantissa ∧ mantissa < 2 ^ 53 ∧ ∃ positive, f = .finite .positive mantissa exponent positive

/-- Rounding may carry over into the exponent. Otherwise the leading digits are kept or rounded up. -/
theorem roundWithAccuracy_of_long (long : 2 ^ 52 ≤ mantissa) (exponent : Int) (low : -1074 ≤ exponent)
    (accuracy : Accuracy) :
    ∃ m e, Normal (roundWithAccuracy Format.binary64 .positive mantissa exponent accuracy) m e ∧
      (e = exponent + (mantissa.log2 - 52 : Nat) ∧ leading mantissa ≤ m ∨
        e = exponent + (mantissa.log2 - 52 : Nat) + 1) := by
  obtain ⟨least, most⟩ := leading_bounds long
  obtain ⟨cut, shifted⟩ := shiftToTargetExponent_of_long long low accuracy
  generalize first : shiftToTargetExponent Format.binary64 mantissa exponent accuracy = pair at cut shifted
  obtain ⟨em, e⟩ := pair
  simp only at cut shifted
  obtain ⟨above, below⟩ := roundedMantissa_bounds em
  rw [cut] at above below
  obtain ⟨cut', shifted'⟩ := shiftToTargetExponent_of_long (Nat.le_trans least above)
    (show -1074 ≤ e by omega) .exact
  have positive : leading em.roundedMantissa ≠ 0 := by
    have := (leading_bounds (Nat.le_trans least above)).1
    omega
  have result : roundWithAccuracy Format.binary64 .positive mantissa exponent accuracy =
      .finite .positive (leading em.roundedMantissa) (e + (em.roundedMantissa.log2 - 52 : Nat))
        (Nat.pos_of_ne_zero positive) := by
    unfold roundWithAccuracy
    simp only [first, cut', shifted']
    exact dif_neg positive
  obtain ⟨least', most'⟩ := leading_bounds (Nat.le_trans least above)
  refine ⟨_, _, ⟨least', most', _, result⟩, ?_⟩
  rcases Nat.lt_or_ge em.roundedMantissa (2 ^ 53) with fits | carry
  · have digits : em.roundedMantissa.log2 = 52 :=
      (Nat.log2_eq_iff (by omega)).mpr ⟨Nat.le_trans least above, fits⟩
    exact .inl ⟨by omega, Nat.le_trans above (Nat.le_of_eq (leading_of_fits (by omega) fits).symm)⟩
  · have digits : em.roundedMantissa.log2 = 53 :=
      (Nat.log2_eq_iff (by omega)).mpr ⟨carry, by omega⟩
    exact .inr (by omega)

/-- A positive number as it is unpacked: its leading digit is in place, or the exponent is the least. -/
def Canonical (mantissa : Nat) (exponent : Int) : Prop :=
  mantissa < 2 ^ 53 ∧ -1074 ≤ exponent ∧ (2 ^ 52 ≤ mantissa ∨ exponent = -1074)

theorem round_of_long (long : 2 ^ 52 ≤ mantissa) :
    round Format.binary64 .positive mantissa exponent =
      roundWithAccuracy Format.binary64 .positive mantissa exponent .exact := by
  have least : Format.binary64.minExponent = -1074 := rfl
  have bits : Format.binary64.mantissaBits = 53 := rfl
  have digits : 52 ≤ mantissa.log2 := (Nat.le_log2 (by omega)).mpr long
  have amount :
      (exponent - Format.binary64.targetExponent (totalExponent mantissa exponent)).toNat = 0 := by
    rw [Format.targetExponent, totalExponent, least, bits]
    omega
  simp only [UnpackedFloat.round, decreaseExponent, amount, Nat.shiftLeft_zero, Nat.cast_zero, sub_zero]

private theorem add_finite (positive : 0 < m) (positive' : 0 < n) (e e' : Int) :
    add Format.binary64 (.finite .positive m e positive) (.finite .positive n e' positive') =
      round Format.binary64 .positive
        (m * 2 ^ (e - min e e').toNat + n * 2 ^ (e' - min e e').toNat) (min e e') := by
  have some : 0 < m * 2 ^ (e - min e e').toNat + n * 2 ^ (e' - min e e').toNat :=
    Nat.add_pos_left (Nat.mul_pos positive (Nat.two_pow_pos _)) _
  have total : Sign.positive.apply (m * 2 ^ (e - min e e').toNat : Nat) +
      Sign.positive.apply (n * 2 ^ (e' - min e e').toNat : Nat) =
      ((m * 2 ^ (e - min e e').toNat + n * 2 ^ (e' - min e e').toNat : Nat) : Int) := rfl
  simp only [add, decreaseExponent, Nat.shiftLeft_eq]
  rw [total, UnpackedFloat.normalize, Int.compare_eq_gt.mpr (Int.natCast_pos.mpr some)]
  simp only [Int.toNat_natCast]

/-- The sum of a number and one with its leading digit in place has its leading digit in place, is at
least the first number, and is at most one place longer than the larger one before it is rounded. -/
theorem add_normal (positive : 0 < m) (canonical : Canonical m e) (normal : Normal g n e')
    (low : -1074 ≤ e') :
    ∃ k d, Normal (add Format.binary64 (.finite .positive m e positive) g) k d ∧
      (e < d ∨ e = d ∧ m ≤ k) ∧ e' ≤ d ∧ d ≤ max e e' + 2 := by
  obtain ⟨fits, low', digit⟩ := canonical
  obtain ⟨long, fits', positive', rfl⟩ := normal
  obtain ⟨a, first⟩ : ∃ a, (e - min e e').toNat = a := ⟨_, rfl⟩
  obtain ⟨b, second⟩ : ∃ b, (e' - min e e').toNat = b := ⟨_, rfl⟩
  rw [add_finite positive positive' e e', first, second]
  obtain ⟨total, sum⟩ : ∃ total, m * 2 ^ a + n * 2 ^ b = total := ⟨_, rfl⟩
  have unit := Nat.two_pow_pos b
  have large : 2 ^ (52 + b) ≤ total := by
    rw [Nat.pow_add, ← sum]
    exact Nat.le_add_left_of_le (Nat.mul_le_mul_right _ long)
  have nonzero : total ≠ 0 := by
    have := Nat.two_pow_pos (52 + b)
    omega
  have digits : 52 + b ≤ total.log2 := (Nat.le_log2 nonzero).mpr large
  have long' : 2 ^ 52 ≤ total := Nat.le_trans (Nat.pow_le_pow_right Nat.two_pos (by omega)) large
  have short : total.log2 < 54 + max a b := by
    refine (Nat.log2_lt nonzero).mpr ?_
    have left : m * 2 ^ a < 2 ^ 53 * 2 ^ max a b :=
      Nat.lt_of_lt_of_le (Nat.mul_lt_mul_of_pos_right fits (Nat.two_pow_pos a))
        (Nat.mul_le_mul_left _ (Nat.pow_le_pow_right Nat.two_pos (Nat.le_max_left a b)))
    have right : n * 2 ^ b < 2 ^ 53 * 2 ^ max a b :=
      Nat.lt_of_lt_of_le (Nat.mul_lt_mul_of_pos_right fits' unit)
        (Nat.mul_le_mul_left _ (Nat.pow_le_pow_right Nat.two_pos (Nat.le_max_right a b)))
    rw [Nat.pow_add, show 2 ^ 54 = 2 * 2 ^ 53 by rfl, Nat.mul_assoc, ← sum]
    omega
  have reaches : e ≤ min e e' + (total.log2 - 52 : Nat) := by
    rcases digit with full | least
    · have large' : 2 ^ (52 + a) ≤ total := by
        rw [Nat.pow_add, ← sum]
        exact Nat.le_add_right_of_le (Nat.mul_le_mul_right _ full)
      have := (Nat.le_log2 nonzero).mpr large'
      omega
    · omega
  rw [sum, round_of_long long']
  obtain ⟨k, d, normal, near⟩ := roundWithAccuracy_of_long long' (min e e') (by omega) .exact
  refine ⟨k, d, normal, ?_, by omega, by omega⟩
  rcases near with ⟨same, kept⟩ | carried
  · rcases Int.lt_or_eq_of_le reaches with above | level
    · exact .inl (by omega)
    · refine .inr ⟨by omega, Nat.le_trans ?_ kept⟩
      have place : total.log2 - 52 = a := by omega
      rw [leading, place, Nat.le_div_iff_mul_le (Nat.two_pow_pos a), ← sum]
      exact Nat.le_add_right _ _
  · exact .inl (by omega)

theorem canonical_unpack {bits : BitVec 64} {sign : Sign} {positive : 0 < mantissa}
    (finite : unpack Format.binary64 bits = .finite sign mantissa exponent positive) :
    Canonical mantissa exponent := by
  have field := (@unpackExponent Format.binary64 bits).isLt
  have digits := (@unpackMantissa Format.binary64 bits).isLt
  unfold unpack at finite
  simp only at finite
  split_ifs at finite with top none subnormal zero
  · cases finite
    refine ⟨Nat.lt_trans digits (by decide), ?_, .inr ?_⟩ <;> rw [subnormal] <;> decide
  · have placed : (1#1 ++ @unpackMantissa Format.binary64 bits).toNat =
        2 ^ 52 + (@unpackMantissa Format.binary64 bits).toNat := toNat_append _ _
    have nonzero : (@unpackExponent Format.binary64 bits).toNat ≠ 0 :=
      fun zero => subnormal (BitVec.eq_of_toNat_eq zero)
    have bias : Format.binary64.exponentBias = 1023 := rfl
    rw [UnpackedFloat.finite.injEq] at finite
    obtain ⟨_, rfl, rfl⟩ := finite
    refine ⟨?_, ?_, .inl ?_⟩
    · rw [placed]
      have : (@unpackMantissa Format.binary64 bits).toNat < 2 ^ 52 := digits
      omega
    · rw [bias]
      have : Format.binary64.mantissaBitsWithoutImplicit = 52 := rfl
      omega
    · rw [placed]
      exact Nat.le_add_right _ _

theorem unpack_pack_large (normal : Normal f mantissa exponent) (large : 971 < exponent) :
    unpack Format.binary64 (pack Format.binary64 f) = .infinity .positive := by
  obtain ⟨_, _, positive, rfl⟩ := normal
  have far : 2 ^ 11 ≤ (exponent + (1023 : Nat) + (52 : Nat)).toNat + 1 := by omega
  have packed : pack Format.binary64 (.finite .positive mantissa exponent positive) =
      packComponents Format.binary64 .positive (-1#11) 0#52 := if_pos far
  rw [packed, unpack_packComponents]
  rfl

theorem unpack_pack_of_normal (normal : Normal f mantissa exponent) (low : -1074 ≤ exponent)
    (high : exponent ≤ 971) : unpack Format.binary64 (pack Format.binary64 f) = f := by
  obtain ⟨long, fits, positive, rfl⟩ := normal
  exact unpack_pack_normal long fits low high positive

/-- A positive binary64 number whose last place is within bounds. -/
def Moderate (low high : Int) (x : Float) : Prop :=
  ∃ mantissa exponent, Normal x.toModel.unpack mantissa exponent ∧ low ≤ exponent ∧ exponent ≤ high

section

variable {low high : Int}

theorem Moderate.widen {low' high' : Int} (moderate : Moderate low high x) (least : low' ≤ low)
    (most : high ≤ high') : Moderate low' high' x := by
  obtain ⟨mantissa, exponent, normal, above, below⟩ := moderate
  exact ⟨mantissa, exponent, normal, by omega, by omega⟩

theorem Moderate.isFinite (moderate : Moderate low high x) : x.isFinite = true := by
  obtain ⟨_, _, ⟨_, _, _, shape⟩, _⟩ := moderate
  exact congrArg UnpackedFloat.isFinite shape

theorem Moderate.pos (moderate : Moderate low high x) : 0 < x := by
  obtain ⟨_, _, ⟨_, _, _, shape⟩, _⟩ := moderate
  have zero : (0 : Float).toModel.unpack = .zero .positive := rfl
  have less : UnpackedFloat.lt (0 : Float).toModel.unpack x.toModel.unpack = true := by
    rw [zero, shape]
    rfl
  exact decide_eq_true less

theorem moderate_ofDyadic (positive : 0 < n) (bound : n < 2 ^ 53) (low : -1000 ≤ exponent)
    (high : exponent ≤ 900) : Moderate (exponent - 52) exponent (ofDyadic n exponent) := by
  have length := log2_le positive bound
  have full : 0 < n * 2 ^ (52 - n.log2) := Nat.mul_pos positive (Nat.two_pow_pos _)
  have digits : (n * 2 ^ (52 - n.log2)).log2 = 52 := by
    rw [log2_mul_two_pow positive]
    omega
  obtain ⟨least, most⟩ := (Nat.log2_eq_iff (Nat.ne_of_gt full)).mp digits
  refine ⟨_, exponent - (52 - n.log2 : Nat), ⟨least, most, full, ?_⟩, by omega, by omega⟩
  rw [unpack_ofDyadic bound low high, dyadic_of_pos positive]

/-- A result with its leading digit in place is packed as it is. -/
theorem moderate_of_normal (shape : x.toModel = .pack f) (normal : Normal f mantissa exponent)
    (low' : low ≤ exponent) (high' : exponent ≤ high) (least : -1074 ≤ low) (most : high ≤ 971) :
    Moderate low high x := by
  refine ⟨mantissa, exponent, ?_, low', high'⟩
  have same : x.toModel.unpack = f := by
    rw [shape]
    exact unpack_pack_of_normal normal (by omega) (by omega)
  rwa [same]

theorem moderate_add (left : Moderate low high x) (right : Moderate low high y) (least : -1074 ≤ low)
    (most : high ≤ 969) : Moderate low (high + 2) (x + y) := by
  obtain ⟨m, e, ⟨long, fits, _, shape⟩, low', high'⟩ := left
  obtain ⟨n, e', normal, low'', high''⟩ := right
  obtain ⟨k, d, sum, _, above, below⟩ :=
    add_normal (by omega) (e := e) ⟨fits, by omega, .inl long⟩ normal (by omega)
  rw [← shape] at sum
  exact moderate_of_normal rfl sum (by omega) (by omega) least (by omega)

theorem moderate_add_zero (zero : y.toModel.unpack = .zero .positive) (moderate : Moderate low high x)
    (least : -1074 ≤ low) (most : high ≤ 971) : Moderate low high (x + y) ∧ Moderate low high (y + x) := by
  obtain ⟨n, e, normal, low', high'⟩ := moderate
  have same : add Format.binary64 x.toModel.unpack y.toModel.unpack = x.toModel.unpack ∧
      add Format.binary64 y.toModel.unpack x.toModel.unpack = x.toModel.unpack := by
    obtain ⟨_, _, _, shape⟩ := normal
    rw [zero, shape]
    exact ⟨rfl, rfl⟩
  exact ⟨moderate_of_normal rfl (same.1.symm ▸ normal) low' high' least most,
    moderate_of_normal rfl (same.2.symm ▸ normal) low' high' least most⟩

/-- The sum of two whole multiples of powers of two is positive unless both are zero. -/
theorem moderate_add_dyadic (left : m < 2 ^ 53) (right : n < 2 ^ 53) (some : 0 < m + n)
    (low : -64 ≤ e) (high : e ≤ 0) (low' : -64 ≤ e') (high' : e' ≤ 0) :
    Moderate (-116) 2 (ofDyadic m e + ofDyadic n e') := by
  have zero {d : Int} (low : -64 ≤ d) (high : d ≤ 0) : (ofDyadic 0 d).toModel.unpack = .zero .positive :=
    unpack_ofDyadic (by decide) (by omega) (by omega)
  rcases Nat.eq_zero_or_pos m with rfl | positive
  · have second : Moderate (e' - 52) e' (ofDyadic n e') :=
      moderate_ofDyadic (by omega) right (by omega) (by omega)
    exact (moderate_add_zero (zero low high) second (by omega) (by omega)).2.widen (by omega) (by omega)
  · have first : Moderate (e - 52) e (ofDyadic m e) :=
      moderate_ofDyadic positive left (by omega) (by omega)
    rcases Nat.eq_zero_or_pos n with rfl | positive'
    · exact (moderate_add_zero (zero low' high') first (by omega) (by omega)).1.widen (by omega) (by omega)
    · have second : Moderate (e' - 52) e' (ofDyadic n e') :=
        moderate_ofDyadic positive' right (by omega) (by omega)
      exact moderate_add (first.widen (by omega) high) (second.widen (by omega) high') (by decide) (by decide)

private theorem div_normal (left : Normal f m e) (right : Normal g n e') (low : -1000 ≤ e - e') :
    ∃ k d, Normal (div Format.binary64 f g) k d ∧ e - e' - 53 ≤ d ∧ d ≤ e - e' := by
  obtain ⟨long, fits, positive, rfl⟩ := left
  obtain ⟨long', fits', positive', rfl⟩ := right
  have digits : m.log2 = 52 := (Nat.log2_eq_iff (by omega)).mpr ⟨long, fits⟩
  have digits' : n.log2 = 52 := (Nat.log2_eq_iff (by omega)).mpr ⟨long', fits'⟩
  have core : divCore Format.binary64 m e n e' =
      (m * 2 ^ 53 / n, e - e' - 53, accuracyOfFraction (m * 2 ^ 53 % n) n) := by
    have least : Format.binary64.minExponent = -1074 := rfl
    have bits : Format.binary64.mantissaBits = 53 := rfl
    have target : min (e - e') (Format.binary64.targetExponent
        (totalExponent m e - totalExponent n e')) = e - e' - 53 := by
      rw [Format.targetExponent, totalExponent, totalExponent, least, bits]
      omega
    have amount : (e - e' - (e - e' - 53)).toNat = 53 := by omega
    simp only [divCore, target, amount, Nat.shiftLeft_eq]
  have least : 2 ^ 52 ≤ m * 2 ^ 53 / n := by
    rw [Nat.le_div_iff_mul_le positive']
    exact Nat.le_trans (Nat.mul_le_mul_left _ (Nat.le_of_lt fits')) (Nat.mul_le_mul_right _ long)
  have most : m * 2 ^ 53 / n < 2 ^ 54 := by
    rw [Nat.div_lt_iff_lt_mul positive']
    calc m * 2 ^ 53 < 2 ^ 53 * 2 ^ 53 := Nat.mul_lt_mul_of_pos_right fits (by decide)
      _ = 2 ^ 54 * 2 ^ 52 := by decide
      _ ≤ 2 ^ 54 * n := Nat.mul_le_mul_left _ long'
  have short : (m * 2 ^ 53 / n).log2 < 54 := (Nat.log2_lt (by omega)).mpr most
  have long : 52 ≤ (m * 2 ^ 53 / n).log2 := (Nat.le_log2 (by omega)).mpr least
  obtain ⟨k, d, normal, near⟩ := roundWithAccuracy_of_long least (e - e' - 53) (by omega)
    (accuracyOfFraction (m * 2 ^ 53 % n) n)
  refine ⟨k, d, ?_, by omega, by omega⟩
  simp only [div, core]
  exact normal

theorem moderate_div (left : Moderate (-100) 100 x) (right : Moderate (-200) 200 y) :
    Moderate (-400) 400 (x / y) := by
  obtain ⟨m, e, normal, low, high⟩ := left
  obtain ⟨n, e', normal', low', high'⟩ := right
  obtain ⟨k, d, quotient, above, below⟩ := div_normal normal normal' (by omega)
  exact moderate_of_normal rfl quotient (by omega) (by omega) (by decide) (by decide)

/-- Only what is no number is not as large as itself. -/
theorem le_self (nonneg : 0 ≤ x) : x ≤ x := by
  have above : UnpackedFloat.le (.zero .positive) x.toModel.unpack = true := of_decide_eq_true nonneg
  suffices UnpackedFloat.le x.toModel.unpack x.toModel.unpack = true from decide_eq_true this
  cases shape : x.toModel.unpack with
  | notANumber =>
    rw [shape] at above
    cases above
  | infinity sign | zero sign => cases sign <;> rfl
  | finite sign mantissa exponent positive =>
    cases sign <;> simp [UnpackedFloat.le, UnpackedFloat.compare]

/-- Adding a positive number to one that is not below zero does not make it less. The sum may be
infinite. -/
theorem le_add_moderate (nonneg : 0 ≤ x) (moderate : Moderate low high y) (least : -1074 ≤ low)
    (most : high ≤ 971) : x ≤ x + y ∧ 0 ≤ x + y := by
  obtain ⟨n, e', normal, low', high'⟩ := moderate
  have above : UnpackedFloat.le (.zero .positive) x.toModel.unpack = true := of_decide_eq_true nonneg
  suffices ∀ f, x.toModel.unpack = f → UnpackedFloat.le f (x + y).toModel.unpack = true ∧
      UnpackedFloat.le (.zero .positive) (x + y).toModel.unpack = true from
    ⟨decide_eq_true (this _ rfl).1, decide_eq_true (this _ rfl).2⟩
  intro f shape
  have whole : (x + y).toModel.unpack = unpack Format.binary64
      (pack Format.binary64 (add Format.binary64 f y.toModel.unpack)) := by
    rw [← shape]
    rfl
  rw [shape] at above
  rw [whole]
  cases f with
  | notANumber => cases above
  | infinity sign =>
    cases sign with
    | negative => cases above
    | positive =>
      have same : add Format.binary64 (.infinity .positive) y.toModel.unpack = .infinity .positive := by
        obtain ⟨_, _, _, shape'⟩ := normal
        rw [shape']
        rfl
      rw [same]
      exact ⟨rfl, rfl⟩
  | zero sign =>
    obtain ⟨long, fits, positive, shape'⟩ := normal
    rw [shape']
    have same : unpack Format.binary64 (pack Format.binary64 (add Format.binary64 (.zero sign)
        (.finite .positive n e' positive))) = .finite .positive n e' positive :=
      unpack_pack_normal long fits (by omega) (by omega) positive
    rw [same]
    cases sign <;> exact ⟨rfl, rfl⟩
  | finite sign m e positive =>
    cases sign with
    | negative => cases above
    | positive =>
      obtain ⟨k, d, sum, larger, _, _⟩ := add_normal positive (canonical_unpack shape) normal
        (by omega)
      by_cases large : 971 < d
      · rw [unpack_pack_large sum large]
        exact ⟨rfl, rfl⟩
      · rw [unpack_pack_of_normal sum (by omega) (by omega)]
        obtain ⟨_, _, positive', shape'⟩ := sum
        rw [shape']
        refine ⟨?_, rfl⟩
        have order : ((compare e d).then (compare m k)).isLE = true := by
          rcases larger with further | ⟨rfl, digits⟩
          · rw [Int.compare_eq_lt.mpr further]
            rfl
          · rw [Int.compare_eq_eq.mpr rfl]
            exact Nat.isLE_compare.mpr digits
        exact order

end

end DistinctCount.Binary64
