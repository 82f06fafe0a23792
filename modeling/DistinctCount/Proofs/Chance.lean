import DistinctCount.Proofs.Bracketing
import DistinctCount.Proofs.Homomorphism

/-! What a change is worth. The history is credited with the number of registers over the sum of the tally,
and that is the inverse of the chance that a hash, each being as likely as any other, changes a register. -/

namespace DistinctCount

namespace Coupon

theorem le_leadingZeros_iff (x : UInt64) {zeros : Nat} (bound : zeros ≤ 64) :
    zeros ≤ leadingZeros x ↔ x.toNat < 2 ^ (64 - zeros) := by
  unfold leadingZeros
  by_cases zero : x = 0
  · rw [if_pos zero, zero]
    exact iff_of_true bound (Nat.two_pow_pos _)
  · have positive : x.toNat ≠ 0 := fun none => zero (UInt64.toNat_inj.mp none)
    have digits : x.toNat.log2 < 64 := (Nat.log2_lt positive).mpr x.toNat_lt
    have same : x.log2.toNat = x.toNat.log2 := rfl
    rw [if_neg zero, same, ← Nat.log2_lt positive]
    omega

theorem lt_value_ofDigest_iff (d : Digest) {value : Nat} (bound : value < maxValue) :
    value < (ofDigest d).value ↔ d.high.toNat < 2 ^ (64 - value) := by
  have most : maxValue = 63 := rfl
  rw [ofDigest, value_pack _ _ (by omega), ← le_leadingZeros_iff d.high (by omega)]
  omega

theorem register_ofDigest (d : Digest) (p : Precision) :
    (ofDigest d).register p.size = d.low.toNat % p.size := by
  have divides : p.size ∣ slots := Nat.pow_dvd_pow 2 (p.le_twentyOne.trans (by decide))
  have divides' : p.size ∣ 2 ^ 32 := Nat.pow_dvd_pow 2 (p.le_twentyOne.trans (by decide))
  rw [register, ofDigest, slot_pack, Nat.mod_mod_of_dvd _ divides, UInt64.toNat_toUInt32,
    Nat.mod_mod_of_dvd _ divides']

end Coupon

theorem sum_range_mod (blocks size : Nat) (f : Nat → Nat) :
    ∑ i ∈ Finset.range (blocks * size), f (i % size) = blocks * ∑ i ∈ Finset.range size, f i := by
  induction blocks with
  | zero => simp
  | succ blocks ih =>
    have last : ∑ i ∈ Finset.range size, f ((blocks * size + i) % size) =
        ∑ i ∈ Finset.range size, f i := by
      apply Finset.sum_congr rfl
      intro i member
      rw [Nat.mul_add_mod_self_right, Nat.mod_eq_of_lt (Finset.mem_range.mp member)]
    rw [Nat.succ_mul, Finset.sum_range_add, ih, last, Nat.succ_mul]

namespace RegisterArray

section

variable {α : Type} [Scalar α] {a : RegisterArray α} {c : Coupon} {low : Nat}

/-- Whether a coupon would change the value of some register. -/
def Changes (a : RegisterArray α) (c : Coupon) : Prop := (a.update c true).values ≠ a.values

instance (a : RegisterArray α) (c : Coupon) : Decidable (a.Changes c) :=
  inferInstanceAs (Decidable (_ ≠ _))

theorem changes_iff (sound : a.Sound) : a.Changes c ↔ a.get (c.register a.precision.size) < c.value := by
  have inside := a.register_lt_length c
  rw [Changes, values_update sound]
  constructor
  · intro changed
    by_contra held
    apply changed
    rw [max_eq_left (not_lt.mp held), ← getElem_values a inside, List.set_getElem_self]
  · intro larger same
    have place : c.register a.precision.size < a.precision.size := Nat.mod_lt _ a.precision.size_pos
    have here := congrArg (·[c.register a.precision.size]?) same
    simp only [List.getElem?_set_self inside] at here
    rw [getElem?_values place] at here
    exact larger.not_ge (max_eq_left_iff.mp (Option.some.inj here))

/-- The hashes with the given halves whose coupons would change a register. -/
def changing (a : RegisterArray α) (lows : Nat) : Finset (Nat × Nat) :=
  (Finset.range lows ×ˢ Finset.range (2 ^ 64)).filter
    fun halves => a.Changes (.ofDigest ⟨.ofNat halves.1, .ofNat halves.2⟩)

/-- No register is at the limit of its width. -/
def Unsaturated (a : RegisterArray α) : Prop := ∀ slot < a.precision.size, a.get slot < Coupon.maxValue

private theorem changes_ofDigest_iff (sound : a.Sound) (unsaturated : a.Unsaturated) (bound : low < 2 ^ 64)
    {high : Nat} (bound' : high < 2 ^ 64) :
    a.Changes (.ofDigest ⟨.ofNat low, .ofNat high⟩) ↔
      high < 2 ^ (64 - a.get (low % a.precision.size)) := by
  have inside : low % a.precision.size < a.precision.size := Nat.mod_lt _ a.precision.size_pos
  rw [changes_iff sound, Coupon.register_ofDigest, UInt64.toNat_ofNat_of_lt' bound,
    Coupon.lt_value_ofDigest_iff _ (unsaturated _ inside), UInt64.toNat_ofNat_of_lt' bound']

/-- A register whose value is one larger is changed by half as many hashes. -/
theorem card_changing (sound : a.Sound) (unsaturated : a.Unsaturated) {lows : Nat} (few : lows ≤ 2 ^ 64) :
    (a.changing lows).card =
      ∑ low ∈ Finset.range lows, 2 ^ (64 - a.get (low % a.precision.size)) := by
  rw [changing, Finset.card_filter, Finset.sum_product]
  apply Finset.sum_congr rfl
  intro low member
  have bound : low < 2 ^ 64 := (Finset.mem_range.mp member).trans_le few
  have least : 2 ^ (64 - a.get (low % a.precision.size)) ≤ 2 ^ 64 :=
    Nat.pow_le_pow_right Nat.two_pos (Nat.sub_le _ _)
  have prefix_eq : (Finset.range (2 ^ 64)).filter
      (fun high => a.Changes (.ofDigest ⟨.ofNat low, .ofNat high⟩)) =
      Finset.range (2 ^ (64 - a.get (low % a.precision.size))) := by
    ext high
    simp only [Finset.mem_filter, Finset.mem_range]
    constructor
    · rintro ⟨bound', changes⟩
      exact (changes_ofDigest_iff sound unsaturated bound bound').mp changes
    · intro small
      have bound' := small.trans_le least
      exact ⟨bound', (changes_ofDigest_iff sound unsaturated bound bound').mpr small⟩
  rw [← Finset.card_filter, prefix_eq, Finset.card_range]

end

variable {α : Type} [Unrounded α] {a : RegisterArray α} {c : Coupon}

/-- The share of all hashes that would change a register. -/
def chance (a : RegisterArray α) : α := (a.changing (2 ^ 64)).card / (2 ^ 128 : Nat)

/-- The values of an unsaturated array, weighed by the hashes that exceed them. -/
theorem sum_weights (exact : a.Exact) (unsaturated : a.Unsaturated) :
    ((∑ slot ∈ Finset.range a.precision.size, 2 ^ (64 - a.get slot) : Nat) : α) =
      2 ^ 64 * a.currentTally.sum := by
  rw [exact.currentTally, sum_scan_eq, Finset.mul_sum, Nat.cast_sum]
  apply Finset.sum_congr rfl
  intro slot member
  have small : a.get slot ≤ 64 :=
    (unsaturated slot (Finset.mem_range.mp member)).le.trans (by decide)
  rw [Nat.cast_pow, Nat.cast_two, inv_pow, pow_sub₀ _ two_ne_zero small]

theorem card_changing_slots (exact : a.Exact) (unsaturated : a.Unsaturated) :
    ((a.changing a.precision.size).card : α) = 2 ^ 64 * a.currentTally.sum := by
  have few : a.precision.size ≤ 2 ^ 64 := a.precision.size_le.trans (by decide)
  rw [card_changing exact.toSound unsaturated few, ← sum_weights exact unsaturated]
  refine congrArg Nat.cast (Finset.sum_congr rfl fun slot member => ?_)
  rw [Nat.mod_eq_of_lt (Finset.mem_range.mp member)]

/-- The low half of a hash picks each register as often as any other. -/
theorem chance_eq (exact : a.Exact) (unsaturated : a.Unsaturated) :
    a.chance = a.currentTally.sum / a.precision.size := by
  have split : 2 ^ 64 = 2 ^ (64 - a.precision.lg) * a.precision.size := by
    rw [Precision.size, ← Nat.pow_add, Nat.sub_add_cancel (a.precision.le_twentyOne.trans (by decide))]
  have every : (a.changing (2 ^ 64)).card = 2 ^ (64 - a.precision.lg) *
      ∑ slot ∈ Finset.range a.precision.size, 2 ^ (64 - a.get slot) := by
    rw [card_changing exact.toSound unsaturated le_rfl]
    conv_lhs => rw [split]
    exact sum_range_mod _ _ (fun slot => 2 ^ (64 - a.get slot))
  have split' : (2 : α) ^ 64 = ((2 ^ (64 - a.precision.lg) : Nat) : α) * a.precision.size := by
    exact_mod_cast congrArg (Nat.cast : Nat → α) split
  have all : ((2 ^ 128 : Nat) : α) = 2 ^ 128 := by rw [Nat.cast_pow, Nat.cast_two]
  have positive : (a.precision.size : α) ≠ 0 := Nat.cast_ne_zero.mpr a.precision.size_pos.ne'
  rw [chance, every, Nat.cast_mul, sum_weights exact unsaturated, all,
    div_eq_div_iff (by positivity) positive]
  calc ((2 ^ (64 - a.precision.lg) : Nat) : α) * (2 ^ 64 * a.currentTally.sum) * a.precision.size
      = ((2 ^ (64 - a.precision.lg) : Nat) : α) * a.precision.size * 2 ^ 64 * a.currentTally.sum := by ring
    _ = a.currentTally.sum * 2 ^ 128 := by
      rw [← split']
      ring

theorem historic_update_changes (exact : a.Exact) (unsaturated : a.Unsaturated) (c : Coupon) :
    (a.Changes c → (a.update c true).historic = a.historic + a.chance⁻¹) ∧
      (¬a.Changes c → (a.update c true).historic = a.historic) := by
  have credit : (Scalar.ofNat a.precision.size / a.currentTally.sum : α) = a.chance⁻¹ := by
    rw [chance_eq exact unsaturated, inv_div, Unrounded.ofNat_eq]
  rw [historic_update exact.toSound, changes_iff exact.toSound, credit]
  constructor
  · intro larger
    exact if_pos ⟨rfl, larger⟩
  · intro held
    exact if_neg (fun change => held change.2)

end RegisterArray

namespace Sketch

variable {α : Type} [Unrounded α] {s : Sketch α} {f : Sketch Float} {a : RegisterArray α}

/-- Of the pairs of a register and a high half, as many change a register as the sum of the tally says. What
a change is credited with, from the tally before the change, is therefore the inverse of the chance of one,
for registers of every width and also for coupons that the base alone turns away. -/
theorem credit_inverse_chance (run : s.Retraces f) (store : s.store = .registers a)
    (unsaturated : a.Unsaturated) :
    ((a.changing a.precision.size).card : α) = 2 ^ 64 * a.currentTally.sum ∧
      (0 < a.chance ∧ a.chance = a.currentTally.sum / a.precision.size) ∧
      ∀ c, (a.Changes c → (a.update c true).historic = a.historic + a.chance⁻¹) ∧
        (¬a.Changes c → (a.update c true).historic = a.historic) := by
  obtain ⟨exact, _, _⟩ := run.registers store
  have share := RegisterArray.chance_eq exact unsaturated
  have positive : 0 < a.chance := by
    rw [share, exact.currentTally]
    exact div_pos (Unrounded.sum_scan_pos _ a.values_ne_nil) (Nat.cast_pos.mpr a.precision.size_pos)
  exact ⟨RegisterArray.card_changing_slots exact unsaturated, ⟨positive, share⟩,
    RegisterArray.historic_update_changes exact unsaturated⟩

/-- Nibbles that have all left the base, so that their tally is pending. Half of the pairs change one. -/
theorem credit_inverse_chance_pending :
    let s : Sketch ℝ := (empty ⟨4, by decide, by decide⟩ .four .standard).addCoupons (Coupon.row 16 5)
    ∃ a, s.store = .registers a ∧ a.isPending = true ∧ a.Unsaturated ∧
      ((a.changing a.precision.size).card : ℝ) = 2 ^ 63 ∧
      (a.update (.pack 3 9) true).historic = a.historic + a.chance⁻¹ ∧
      (a.update (.pack 3 4) true).historic = a.historic := by
  intro s
  have valued := @Coupon.valued_row 5 16 (by decide) (by decide)
  have run := (Retraces.empty (α := ℝ) ⟨4, by decide, by decide⟩ .four .standard).addCoupons _ valued
  have start : (empty ⟨4, by decide, by decide⟩ .four .standard : Sketch ℝ).Holds [] := holds_empty _ _ _
  have holds := (holds_addCoupons start _ valued).1
  obtain ⟨a, store⟩ : ∃ a, s.store = .registers a := ⟨_, rfl⟩
  have pending : a.isPending = true := by
    cases store
    rfl
  have known := holds.store
  rw [store, List.append_nil] at known
  obtain ⟨exact, precision, _⟩ := run.registers store
  have size : a.precision.size = 16 := congrArg Precision.size precision
  have value : ∀ slot < a.precision.size, a.get slot = 5 := by
    intro slot inside
    rw [size] at inside
    rw [known.get_row le_rfl (by decide) inside]
    exact if_pos inside
  have unsaturated : a.Unsaturated := by
    intro slot inside
    rw [value slot inside]
    decide
  have three : a.get 3 = 5 := value 3 (size.symm ▸ (by decide))
  obtain ⟨share, _, credited⟩ := credit_inverse_chance run store unsaturated
  refine ⟨a, store, pending, unsaturated, share.trans ?_, (credited _).1 ?_, (credited _).2 ?_⟩
  · rw [exact.currentTally, RegisterArray.scan, Unrounded.sum_scan, RegisterArray.values_replicate value, size]
    norm_num [Unrounded.halfPow_eq]
  · rw [RegisterArray.changes_iff exact.toSound, size]
    exact three.trans_lt (by decide)
  · rw [RegisterArray.changes_iff exact.toSound, size]
    exact fun larger => absurd (three.symm.trans_lt larger) (by decide)

end Sketch

end DistinctCount
