import DistinctCount.Proofs.Stream
import Mathlib.Order.Bounds.Basic

namespace DistinctCount

namespace Store

variable {α : Type} [Scalar α] {p : Precision} {count few many : Nat}

theorem modeFor_eq_list_iff : modeFor p count = .list ↔ count ≤ 7 := by
  have eight : CouponList.capacity = 8 := rfl
  unfold modeFor
  split_ifs <;> simp <;> omega

/-- The largest table takes three coupons for each 32 registers. -/
private theorem overloads_lgMaxSetSize (fine : 8 ≤ p.lg) :
    CouponTable.overloads count (lgMaxSetSize p) = false ↔ count ≤ 3 * 2 ^ (p.lg - 5) := by
  have margin : lgMaxSetSize p = (p.lg - 5) + 2 := by
    have : lgMaxSetSize p = p.lg - 3 := rfl
    omega
  rw [CouponTable.overloads_eq_false_iff, margin, Nat.pow_add]
  omega

theorem modeFor_eq_set_iff :
    modeFor p count = .set ↔ 8 ≤ p.lg ∧ 8 ≤ count ∧ count ≤ 3 * 2 ^ (p.lg - 5) := by
  have eight : CouponList.capacity = 8 := rfl
  have least : lgMinForSet = 8 := rfl
  by_cases fine : 8 ≤ p.lg
  · simp only [modeFor, overloads_lgMaxSetSize fine]
    split_ifs <;> simp <;> omega
  · rw [modeFor]
    split_ifs <;> simp <;> omega

theorem modeFor_eq_registers_iff :
    modeFor p count = .registers ↔ 8 ≤ count ∧ (8 ≤ p.lg → 3 * 2 ^ (p.lg - 5) < count) := by
  have list : modeFor p count = .list ↔ _ := modeFor_eq_list_iff
  have set : modeFor p count = .set ↔ _ := modeFor_eq_set_iff
  cases mode : modeFor p count <;> simp only [mode, true_iff, reduceCtorEq, false_iff] at list set ⊢ <;> omega

/-- More coupons do not bring an earlier representation back. -/
theorem code_modeFor_mono (more : few ≤ many) : (modeFor p few).code ≤ (modeFor p many).code := by
  cases mode : modeFor p few with
  | list => exact Nat.zero_le _
  | set =>
    have notList : modeFor p many ≠ .list := by
      rw [Ne, modeFor_eq_list_iff]
      have := (modeFor_eq_set_iff.mp mode).2.1
      omega
    cases mode' : modeFor p many with
    | list => exact absurd mode' notList
    | set | registers => decide
  | registers => rw [modeFor_registers_mono more (Nat.le_refl _) mode]

/-- The table of a set is the smallest one that holds its coupons without being overloaded. -/
theorem isLeast_lgSize {set : CouponSet} {width : Width} (sound : (Store.set set width : Store α).Sound p) :
    set.table.entries.size = 2 ^ set.table.lgSize ∧
      IsLeast {lgSize | 5 ≤ lgSize ∧ 4 * set.count ≤ 3 * 2 ^ lgSize} set.table.lgSize ∧
      set.table.lgSize ≤ p.lg - 3 := by
  obtain ⟨_, _, most⟩ := sound_set sound
  obtain ⟨keyed, size, _⟩ := sound
  have asked (lgSize : Nat) :
      CouponSet.lgSizeFor set.count ≤ lgSize ↔ 5 ≤ lgSize ∧ 4 * set.count ≤ 3 * 2 ^ lgSize := by
    rw [CouponSet.lgSizeFor_le_iff, CouponTable.overloads_eq_false_iff]
    rfl
  refine ⟨keyed.size_entries, ⟨?_, fun lgSize enough => ?_⟩, most⟩
  · exact (asked _).mp (Nat.le_of_eq size.symm)
  · rw [size]
    exact (asked lgSize).mpr enough

end Store

namespace Sketch

variable {α : Type} [Scalar α]

/-- The representation after a stream of coupons, and the size of the table if it is a set, are known from
the number of distinct ones alone. No further coupon leads back to an earlier representation. -/
theorem mode_addCoupons_empty_iff (p : Precision) (width : Width) (seed : Seed) (coupons : List Coupon)
    (valued : ∀ c ∈ coupons, 1 ≤ c.value) :
    let s : Sketch α := (empty p width seed).addCoupons coupons
    let n := coupons.dedup.length
    (s.mode = .list ↔ n ≤ 7) ∧
    (p.lg < 8 → (s.mode = .registers ↔ 8 ≤ n)) ∧
    (8 ≤ p.lg → (s.mode = .set ↔ 8 ≤ n ∧ n ≤ 3 * 2 ^ (p.lg - 5)) ∧
      (s.mode = .registers ↔ 3 * 2 ^ (p.lg - 5) < n)) ∧
    (∀ set width', s.store = .set set width' →
      set.table.entries.size = 2 ^ set.table.lgSize ∧
      IsLeast {lgSize | 5 ≤ lgSize ∧ 4 * n ≤ 3 * 2 ^ lgSize} set.table.lgSize ∧
      set.table.lgSize ≤ p.lg - 3) ∧
    ∀ more : List Coupon, (∀ c ∈ more, 1 ≤ c.value) → s.mode.code ≤ (s.addCoupons more).mode.code := by
  intro s n
  have after (stream : List Coupon) (valued : ∀ c ∈ stream, 1 ≤ c.value) :=
    Store.updateAll_represents (Store.sound_empty (α := α) p width) (Store.represents_empty p width) stream
      valued true
  obtain ⟨sound, _, represents⟩ := after coupons valued
  rw [List.append_nil] at represents
  have store : s.store = coupons.foldl (fun store c => store.update p c true) (.empty width) :=
    congrArg Sketch.store (addCoupons_eq (empty p width seed) coupons)
  rw [← store] at sound represents
  have mode : s.mode = Store.modeFor p n := represents.mode
  refine ⟨mode ▸ Store.modeFor_eq_list_iff, fun coarse => ?_, fun fine => ⟨?_, ?_⟩, fun set width' content => ?_,
    fun more valued' => ?_⟩
  · rw [mode, Store.modeFor_eq_registers_iff]
    omega
  · rw [mode, Store.modeFor_eq_set_iff]
    omega
  · have room : 2 ^ 3 ≤ 2 ^ (p.lg - 5) := Nat.pow_le_pow_right Nat.two_pos (by omega)
    rw [mode, Store.modeFor_eq_registers_iff]
    omega
  · rw [content] at sound represents
    obtain ⟨distinct, _⟩ := Store.sound_coupons sound rfl
    have count : n = set.count := by
      rw [CouponSet.count_eq sound.1]
      exact length_dedup_of_mem_iff distinct (represents.held _ rfl)
    rw [count]
    exact Store.isLeast_lgSize sound
  · obtain ⟨_, _, represents'⟩ := after (coupons ++ more)
      (List.forall_mem_append.mpr ⟨valued, valued'⟩)
    rw [List.append_nil] at represents'
    have mode' : (s.addCoupons more).mode = Store.modeFor p (coupons ++ more).dedup.length := by
      rw [← addCoupons_append, addCoupons_eq]
      exact represents'.mode
    rw [mode, mode']
    exact Store.code_modeFor_mono (length_dedup_mono (List.subset_append_left coupons more))

/-- A sketch of the coarsest precision that has sets keeps 24 coupons in its only table, and not 25. -/
theorem mode_addCoupons_empty_twentyFive :
    let p : Precision := ⟨8, by decide, by decide⟩
    let coupons (n : Nat) := (List.range n).map (Coupon.pack · 5)
    (∀ c ∈ coupons 25, 1 ≤ c.value) ∧
      ((empty p .four .standard : Sketch Float).addCoupons (coupons 24)).mode = .set ∧
      ((empty p .four .standard : Sketch Float).addCoupons (coupons 25)).mode = .registers := by
  intro p coupons
  have few := (mode_addCoupons_empty_iff (α := Float) p .four .standard (coupons 24) (by decide)).2.2.1 (by decide)
  have many := (mode_addCoupons_empty_iff (α := Float) p .four .standard (coupons 25) (by decide)).2.2.1 (by decide)
  exact ⟨by decide, few.1.mpr (by decide), many.2.mpr (by decide)⟩

end Sketch

end DistinctCount
