import DistinctCount.Sketch
import DistinctCount.Proofs.Promotion
import Mathlib.Data.List.Dedup
import Mathlib.Order.Lattice

/-! What a sketch knows of the coupons that were presented to it: the coupons themselves while they are
few, and then for each register the largest value among them. -/

namespace DistinctCount

namespace Coupon

variable {xs ys coupons : List Coupon} {c : Coupon} {size slot bound : Nat}

/-- The largest value among the coupons of a register, or zero if it has none. -/
def peak (coupons : List Coupon) (size slot : Nat) : Nat :=
  (coupons.filter (·.register size = slot)).foldl (fun largest c => max largest c.value) 0

theorem peak_le_iff :
    peak coupons size slot ≤ bound ↔ ∀ c ∈ coupons, c.register size = slot → c.value ≤ bound := by
  rw [peak, foldl_max_le_iff]
  simp

/-- A number is the peak once it is below the same bounds. -/
theorem eq_peak_of_bounds {value : Nat}
    (bounds : ∀ bound, value ≤ bound ↔ ∀ c ∈ coupons, c.register size = slot → c.value ≤ bound) :
    value = peak coupons size slot :=
  eq_of_forall_ge_iff (fun bound => (bounds bound).trans peak_le_iff.symm)

theorem peak_congr (same : ∀ c, c ∈ xs ↔ c ∈ ys) : peak xs size slot = peak ys size slot :=
  eq_peak_of_bounds (fun bound => by simp only [peak_le_iff, same])

theorem ne_empty_of_valued (valued : 1 ≤ c.value) : c ≠ Coupon.empty := by
  rintro rfl
  exact absurd valued (by decide)

end Coupon

theorem length_dedup_mono {few many : List Coupon} (subset : few ⊆ many) :
    few.dedup.length ≤ many.dedup.length :=
  (few.nodup_dedup.subperm
    (fun _ member => List.mem_dedup.mpr (subset (List.mem_dedup.mp member)))).length_le

theorem length_dedup_of_mem_iff {kept coupons : List Coupon} (distinct : kept.Nodup)
    (same : ∀ c, c ∈ kept ↔ c ∈ coupons) : coupons.dedup.length = kept.length := by
  have perm : coupons.dedup.Perm kept := by
    rw [List.perm_ext_iff_of_nodup coupons.nodup_dedup distinct]
    exact fun c => (List.mem_dedup).trans (same c).symm
  exact perm.length_eq

namespace Store

section

variable {α : Type} {s : Store α} {p : Precision} {coupons all : List Coupon}

/-- A store in the representation that the coupons ask for, with all that it can know of them. -/
structure Represents (s : Store α) (p : Precision) (coupons : List Coupon) : Prop where
  mode : s.mode = modeFor p coupons.dedup.length
  held : ∀ kept, s.content = .coupons kept → ∀ c, c ∈ kept ↔ c ∈ coupons
  read : ∀ array, s.content = .registers array →
    ∀ slot < p.size, array.get slot = Coupon.peak coupons p.size slot

theorem Represents.congr (represents : s.Represents p coupons) (same : ∀ c, c ∈ coupons ↔ c ∈ all) :
    s.Represents p all := by
  have counts : all.dedup.length = coupons.dedup.length :=
    length_dedup_of_mem_iff coupons.nodup_dedup (fun c => List.mem_dedup.trans (same c))
  refine ⟨by rw [counts]; exact represents.mode, fun kept content c => ?_,
    fun array content slot inside => ?_⟩
  · exact (represents.held kept content c).trans (same c)
  · rw [represents.read array content slot inside]
    exact Coupon.peak_congr same

theorem represents_empty (p : Precision) (width : Width) :
    (empty width : Store α).Represents p [] := by
  refine ⟨rfl, fun kept content c => ?_, fun array content => ?_⟩ <;> cases content
  rfl

theorem eq_of_content {array : RegisterArray α} (content : s.content = .registers array) :
    s = .registers array := by
  cases s <;> cases content
  rfl

end

variable {α : Type} [Scalar α] {s : Store α} {p q : Precision} {c : Coupon} {coupons : List Coupon}
  {few many : Nat}

theorem modeFor_registers_mono (more : few ≤ many)
    (coarser : q.lg ≤ p.lg) (mode : modeFor p few = .registers) : modeFor q many = .registers := by
  unfold modeFor at mode ⊢
  have eight : CouponList.capacity = 8 := rfl
  have least : lgMinForSet = 8 := rfl
  split_ifs at mode with short fits
  have size : 2 ^ lgMaxSetSize q ≤ 2 ^ lgMaxSetSize p :=
    Nat.pow_le_pow_right Nat.two_pos (Nat.sub_le_sub_right coarser _)
  rw [if_neg (by omega), if_neg]
  rintro ⟨precision, room⟩
  refine fits ⟨Nat.le_trans precision coarser, ?_⟩
  rw [CouponTable.overloads_eq_false_iff] at room ⊢
  omega

theorem update_represents (sound : s.Sound p) (represents : s.Represents p coupons)
    (valued : 1 ≤ c.value) (inOrder : Bool) :
    (s.update p c inOrder).Sound p ∧ (s.update p c inOrder).width = s.width ∧
      (s.update p c inOrder).Represents p (c :: coupons) := by
  cases content : s.content with
  | coupons kept =>
    obtain ⟨distinct, _, _, mode⟩ := sound_coupons sound content
    have held := represents.held kept content
    have admits := update_admits sound content (Coupon.ne_empty_of_valued valued) inOrder
    refine ⟨admits.sound, admits.width, ?_⟩
    by_cases known : c ∈ kept
    · rw [admits.known known]
      apply represents.congr
      intro d
      rw [List.mem_cons, or_iff_right_of_imp]
      rintro rfl
      exact (held _).mp known
    · obtain ⟨all, perm, mode', made⟩ := admits.fresh known
      have member (d : Coupon) : d ∈ all ↔ d ∈ c :: coupons := by
        rw [perm.mem_iff, List.mem_cons, List.mem_cons, held]
      have distinct' : all.Nodup := perm.nodup_iff.mpr (List.nodup_cons.mpr ⟨known, distinct⟩)
      refine ⟨?_, fun kept' content' d => ?_, fun array content' slot inside => ?_⟩
      · rw [length_dedup_of_mem_iff distinct' member]
        exact mode'
      · rw [content'] at made
        cases made
        exact member d
      · rw [content'] at made
        cases made
        apply Coupon.eq_peak_of_bounds
        intro bound
        rw [(promoted_spec p s.width all all.length).2.2.2 slot inside]
        simp only [member]
  | registers array =>
    obtain rfl := eq_of_content content
    obtain ⟨sound', rfl⟩ := sound
    obtain ⟨sound'', precision, width, read⟩ := RegisterArray.update_spec sound' c inOrder
    refine ⟨⟨sound'', precision⟩, width, ?_, fun kept content' => ?_, fun array' content' => ?_⟩
    · have more := length_dedup_mono (List.subset_cons_self c coupons)
      exact (modeFor_registers_mono more (Nat.le_refl _) represents.mode.symm).symm
    · cases content'
    · cases content'
      intro slot inside
      have before := represents.read array rfl slot inside
      apply Coupon.eq_peak_of_bounds
      intro bound
      rw [read slot inside, List.forall_mem_cons, ← Coupon.peak_le_iff, ← before]
      split_ifs with here
      · rw [Nat.max_le, and_comm, here]
        simp only [true_imp_iff]
      · simp only [Ne.symm here, false_imp_iff, true_and]

theorem updateAll_represents (sound : s.Sound p) (represents : s.Represents p coupons)
    (stream : List Coupon) (valued : ∀ c ∈ stream, 1 ≤ c.value) (inOrder : Bool) :
    let updated := stream.foldl (fun s c => s.update p c inOrder) s
    updated.Sound p ∧ updated.width = s.width ∧ updated.Represents p (stream ++ coupons) := by
  induction stream generalizing s coupons with
  | nil => exact ⟨sound, rfl, represents⟩
  | cons c rest ih =>
    obtain ⟨sound', width, represents'⟩ :=
      update_represents sound represents (valued c (by simp)) inOrder
    obtain ⟨sound'', width', represents''⟩ :=
      ih sound' represents' (fun d member => valued d (by simp [member]))
    refine ⟨sound'', width'.trans width, represents''.congr (fun d => ?_)⟩
    simp only [List.mem_append, List.mem_cons]
    tauto

end Store

namespace Sketch

variable {α : Type} [Scalar α] {s : Sketch α} {coupons : List Coupon}

theorem addCoupons_eq (s : Sketch α) (coupons : List Coupon) :
    s.addCoupons coupons =
      { s with store := coupons.foldl (fun store c => store.update s.precision c !s.outOfOrder) s.store } := by
  induction coupons generalizing s with
  | nil => rfl
  | cons c rest ih => exact ih (s.addCoupon c)

theorem addCoupons_append (s : Sketch α) (earlier later : List Coupon) :
    s.addCoupons (earlier ++ later) = (s.addCoupons earlier).addCoupons later := List.foldl_append ..

/-- The state of a sketch after a stream of coupons, whatever was promoted, grown or put off on the
way: each distinct coupon once, or for each register the largest value among its coupons. -/
theorem content_addCoupons_empty (p : Precision) (width : Width) (seed : Seed)
    (coupons : List Coupon) (valued : ∀ c ∈ coupons, 1 ≤ c.value) :
    let s : Sketch α := (empty p width seed).addCoupons coupons
    s.mode = Store.modeFor p coupons.dedup.length ∧
    match s.store.content with
    | .coupons kept => kept.Nodup ∧ (∀ c, c ∈ kept ↔ c ∈ coupons) ∧
        s.store.couponCount? = some coupons.dedup.length
    | .registers array => array.precision = p ∧ array.width = width ∧
        ∀ slot < p.size, array.get slot = Coupon.peak coupons p.size slot := by
  obtain ⟨sound, same, represents⟩ := Store.updateAll_represents (Store.sound_empty (α := α) p width)
    (Store.represents_empty p width) coupons valued true
  rw [List.append_nil] at represents
  simp only [addCoupons_eq]
  refine ⟨represents.mode, ?_⟩
  split
  · rename_i kept content
    obtain ⟨distinct, _, count, _⟩ := Store.sound_coupons sound content
    have held := represents.held kept content
    exact ⟨distinct, held, by rw [length_dedup_of_mem_iff distinct held]; exact count⟩
  · rename_i array content
    have read := represents.read array content
    have registers := Store.eq_of_content content
    simp only [empty] at registers
    rw [Bool.not_false] at registers
    rw [registers] at sound same
    exact ⟨sound.2, same, read⟩

/-- Nine distinct coupons are too many for the coarsest sketch. -/
theorem mode_addCoupons_nine :
    (∀ c ∈ (List.range 9).map (Coupon.pack · 5), 1 ≤ c.value) ∧
      ((empty ⟨4, by decide, by decide⟩ .four .standard : Sketch Float).addCoupons
        ((List.range 9).map (Coupon.pack · 5))).mode = .registers :=
  ⟨by decide, (content_addCoupons_empty ⟨4, by decide, by decide⟩ .four .standard
    ((List.range 9).map (Coupon.pack · 5)) (by decide)).1.trans (by decide)⟩

end Sketch

end DistinctCount
