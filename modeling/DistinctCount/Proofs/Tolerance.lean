import DistinctCount.Proofs.Rounding

/-! The sum of a tally. Its two parts are whole multiples of powers of two, so that it is zero only if there
are no values; it may be rounded, but it is finite, and it passes the test by which a stored one is taken
over. -/

namespace DistinctCount

namespace Binary64

open Float.Model (Format UnpackedFloat)
open Float.Model.UnpackedFloat

variable {mantissa : Nat} {f : UnpackedFloat} {values : List Nat} {tracked : Bool} {t : Tally Float}

/-- The values of a part, in multiples of its least power of two. -/
def multiples (high : Bool) (values : List Nat) : Nat :=
  ((values.filter (Tally.inPart high)).map (weight high)).sum

theorem multiples_le (fits : Tally.Fits values) (high : Bool) : multiples high values ≤ 2 ^ 52 :=
  sum_weight_le (fits.filter _) (fun _ member => (List.mem_filter.mp member).2)

theorem multiples_lt (fits : Tally.Fits values) (high : Bool) : multiples high values < 2 ^ 53 :=
  Nat.lt_of_le_of_lt (multiples_le fits high) (by decide)

/-- A value counts in one of the parts. -/
theorem multiples_pos (nonempty : values ≠ []) : 0 < multiples false values + multiples true values := by
  obtain ⟨value, member⟩ := List.exists_mem_of_ne_nil values nonempty
  have counted (high : Bool) (counts : Tally.inPart high value) : 0 < multiples high values := by
    have present : weight high value ∈ (values.filter (Tally.inPart high)).map (weight high) :=
      List.mem_map.mpr ⟨value, List.mem_filter.mpr ⟨member, counts⟩, rfl⟩
    exact Nat.lt_of_lt_of_le (Nat.two_pow_pos _) (List.single_le_sum (fun _ _ => Nat.zero_le _) _ present)
  rcases Nat.lt_or_ge value Tally.divide with small | large
  · exact Nat.add_pos_left (counted false (decide_eq_true small)) _
  · exact Nat.add_pos_right _ (counted true (decide_eq_true large))

theorem sumOf_part (fits : Tally.Fits values) (high : Bool) :
    (Tally.sumOf (values.filter (Tally.inPart high)) : Float) =
      ofDyadic (multiples high values) (-(deepest high : Int)) :=
  sumOf_eq (fits.filter _) (fun _ member => (List.mem_filter.mp member).2)

theorem part_scan_eq (fits : Tally.Fits values) (tracked high : Bool) :
    (Tally.scan tracked values : Tally Float).part high =
      ofDyadic (multiples high values) (-(deepest high : Int)) := by
  rw [Tally.part_scan, sumOf_part fits]

/-- The rational number that a finite binary64 number is. -/
def toRat? (x : Float) : Option ℚ :=
  match x.toModel.unpack with
  | .zero _ => some 0
  | .finite sign mantissa exponent _ => some (sign.apply mantissa * (2 : ℚ) ^ exponent)
  | _ => none

theorem toRat?_ofDyadic {n : Nat} {exponent : Int} (bound : n < 2 ^ 53) (low : -1000 ≤ exponent)
    (high : exponent ≤ 900) : toRat? (ofDyadic n exponent) = some (n * (2 : ℚ) ^ exponent) := by
  rw [toRat?, unpack_ofDyadic bound low high]
  rcases Nat.eq_zero_or_pos n with rfl | positive
  · simp [dyadic_zero]
  · rw [dyadic_of_pos positive]
    have split : (2 : ℚ) ^ exponent =
        ((2 ^ (52 - n.log2) : Nat) : ℚ) * (2 : ℚ) ^ (exponent - (52 - n.log2 : Nat)) := by
      rw [Nat.cast_pow, Nat.cast_ofNat, ← zpow_natCast, ← zpow_add₀ (by norm_num)]
      congr 1
      omega
    simp only [Sign.apply, split]
    rw [Int.cast_natCast, Nat.cast_mul, mul_assoc]

theorem weight_eq {value : Nat} {high : Bool} (limit : value ≤ Coupon.maxValue) (counts : Tally.inPart high value) :
    (weight high value : ℚ) * (2 : ℚ) ^ (-(deepest high : Int)) = (2 : ℚ) ^ (-(value : Int)) := by
  have depth := le_deepest limit counts
  rw [weight, Nat.cast_pow, Nat.cast_ofNat, ← zpow_natCast, ← zpow_add₀ (by norm_num)]
  congr 1
  omega

theorem multiples_eq (bounded : ∀ value ∈ values, value ≤ Coupon.maxValue) (high : Bool) :
    (multiples high values : ℚ) * (2 : ℚ) ^ (-(deepest high : Int)) =
      ((values.filter (Tally.inPart high)).map (fun value : Nat => (2 : ℚ) ^ (-(value : Int)))).sum := by
  have each {value : Nat} (member : value ∈ values.filter (Tally.inPart high)) :
      (weight high value : ℚ) * (2 : ℚ) ^ (-(deepest high : Int)) = (2 : ℚ) ^ (-(value : Int)) := by
    obtain ⟨present, counts⟩ := List.mem_filter.mp member
    exact weight_eq (bounded value present) counts
  rw [multiples]
  generalize values.filter (Tally.inPart high) = part at each
  induction part with
  | nil => simp
  | cons value rest ih =>
    rw [List.map_cons, List.map_cons, List.sum_cons, List.sum_cons, Nat.cast_add, add_mul,
      each List.mem_cons_self, ih (fun member => each (List.mem_cons_of_mem value member))]

/-- The parts of a scan are sums without rounding. -/
theorem toRat?_part_scan (fits : Tally.Fits values) (tracked high : Bool) :
    toRat? ((Tally.scan tracked values : Tally Float).part high) =
      some ((values.filter (Tally.inPart high)).map (fun value : Nat => (2 : ℚ) ^ (-(value : Int)))).sum := by
  have depth := deepest_le high
  rw [part_scan_eq fits, toRat?_ofDyadic (multiples_lt fits high) (by omega) (by omega),
    multiples_eq fits.bounded]

theorem moderate_sum_scan (fits : Tally.Fits values) (nonempty : values ≠ []) (tracked : Bool) :
    Moderate (-116) 2 (Tally.scan tracked values : Tally Float).sum := by
  have low := part_scan_eq fits tracked false
  have high := part_scan_eq fits tracked true
  have both : (Tally.scan tracked values : Tally Float).sum =
      ofDyadic (multiples false values) (-31) + ofDyadic (multiples true values) (-63) :=
    congrArg₂ (· + ·) low high
  rw [both]
  exact moderate_add_dyadic (multiples_lt fits false) (multiples_lt fits true) (multiples_pos nonempty)
    (by decide) (by decide) (by decide) (by decide)

private theorem sub_self_eq_zero (finite : f.isFinite = true) (nonneg : Nonneg f) :
    sub Format.binary64 f f = .zero .positive := by
  cases f with
  | zero sign =>
    obtain rfl : sign = .positive := nonneg
    rfl
  | finite sign mantissa exponent positive =>
    simp only [sub, Int.sub_self]
    rfl
  | infinity sign => cases finite
  | notANumber => cases finite

private theorem nonneg_mul (finite : f.isFinite = true) (nonneg : Nonneg f) (positive : 0 < mantissa)
    (exponent : Int) : Nonneg (mul Format.binary64 (.finite .positive mantissa exponent positive) f) := by
  cases f with
  | zero sign =>
    obtain rfl : sign = .positive := nonneg
    rfl
  | finite sign other e positive' =>
    obtain rfl : sign = .positive := nonneg
    simp only [mul, roundWithAccuracy]
    split_ifs <;> rfl
  | infinity sign => cases finite
  | notANumber => cases finite

private theorem zero_le (nonneg : Nonneg f) : (UnpackedFloat.zero .positive).le f = true := by
  cases f with
  | zero sign => rfl
  | finite sign mantissa exponent positive =>
    obtain rfl : sign = .positive := nonneg
    rfl
  | infinity sign =>
    obtain rfl : sign = .positive := nonneg
    rfl
  | notANumber => cases nonneg

private theorem sameSum_self (finite : t.sum.toModel.unpack.isFinite = true)
    (nonneg : Nonneg t.sum.toModel.unpack) : t.sameSum t = true := by
  have difference : t.sum - t.sum = ofDyadic 0 0 :=
    congrArg (fun value => Float.ofModel (.pack value)) (sub_self_eq_zero finite nonneg)
  have distance : Scalar.magnitude (ofDyadic 0 0) = ofDyadic 0 0 := by decide +kernel
  obtain ⟨mantissa, exponent, positive, tolerance⟩ : ∃ mantissa exponent positive,
      (Tally.tolerance : Float).toModel.unpack = .finite .positive mantissa exponent positive :=
    ⟨_, _, _, rfl⟩
  have product : Nonneg (Tally.tolerance * t.sum).toModel.unpack := by
    refine nonneg_unpack_pack ?_
    rw [tolerance]
    exact nonneg_mul finite nonneg positive exponent
  have below : Scalar.magnitude (t.sum - t.sum) ≤ Tally.tolerance * t.sum := by
    rw [difference, distance]
    exact decide_eq_true (zero_le product)
  exact decide_eq_true below

theorem sameSum_scan (fits : Tally.Fits values) (tracked : Bool) :
    (Tally.scan tracked values : Tally Float).sameSum (Tally.scan tracked values) = true := by
  rcases values.eq_nil_or_concat with rfl | ⟨rest, last, rfl⟩
  · have zero : (Tally.scan tracked [] : Tally Float).sum = ofDyadic 0 0 := by
      cases tracked <;> decide +kernel
    have shown : (ofDyadic 0 0).toModel.unpack = .zero .positive :=
      unpack_ofDyadic (by decide) (by decide) (by decide)
    apply sameSum_self <;> rw [zero, shown] <;> rfl
  · have moderate := moderate_sum_scan fits (by simp) tracked
    obtain ⟨_, _, ⟨_, _, _, shape⟩, _⟩ := moderate
    apply sameSum_self <;> rw [shape] <;> rfl

end Binary64

namespace RegisterArray

variable {a : RegisterArray Float}

open Binary64

theorem moderate_sum (encoded : a.Encoded) : Moderate (-116) 2 a.scan.sum :=
  moderate_sum_scan (fits_values encoded) a.values_ne_nil (tracksBase a.width)

/-- As long as the tally is that of a scan, a change is credited with a positive number. -/
theorem moderate_credit (encoded : a.Encoded) (exact : a.tally = a.scan) :
    Moderate (-400) 400 a.credit := by
  have few : a.precision.size < 2 ^ 53 :=
    Nat.lt_of_le_of_lt (Nat.pow_le_pow_right Nat.two_pos a.precision.le_twentyOne) (by decide)
  have size : Moderate (0 - 52) 0 (Scalar.ofNat a.precision.size : Float) := by
    have whole : (Scalar.ofNat a.precision.size : Float) = ofDyadic a.precision.size 0 := ofNat_eq few
    rw [whole]
    exact moderate_ofDyadic a.precision.size_pos few (by decide) (by decide)
  have sum : Moderate (-116) 2 a.tally.sum := exact ▸ moderate_sum encoded
  exact moderate_div (size.widen (by decide) (by decide)) (sum.widen (by decide) (by decide))

end RegisterArray

end DistinctCount
