import DistinctCount.Proofs.Promotion

namespace DistinctCount

namespace Store

/-- Coupons in a table that searches can rely on, whatever its size, or sound registers. -/
def Usable {α : Type} [Scalar α] (p : Precision) : Store α → Prop
  | .list coupons _ =>
    coupons.coupons.Nodup ∧ Coupon.empty ∉ coupons.coupons ∧ coupons.count < CouponList.capacity
  | .set coupons _ => coupons.Sound
  | .registers array => array.Sound ∧ array.precision = p

/-- The store still has the coupon, or its register is no smaller than its value. -/
def Knows {α : Type} (p : Precision) (c : Coupon) : Store α → Prop
  | .list coupons _ => c ∈ coupons.coupons
  | .set coupons _ => c ∈ coupons.coupons
  | .registers array => c.value ≤ array.get (c.register p.size)

section

variable {α : Type} [Scalar α] {s : Store α} {p : Precision} {width : Width} {c d : Coupon}

theorem usable_of_sound (sound : s.Sound p) : s.Usable p := by
  cases s with
  | list | registers => exact sound
  | set set width => exact (sound_set sound).1

theorem knows_promoted {coupons : List Coupon} (member : d ∈ coupons) (count : Nat) :
    (Store.registers (promoted p width coupons count) : Store α).Knows p d := by
  obtain ⟨_, _, _, bounds⟩ := promoted_spec (α := α) p width coupons count
  exact (bounds _ (Nat.mod_lt _ p.size_pos) _).mp (Nat.le_refl _) d member rfl

theorem usable_promoted (coupons : List Coupon) (count : Nat) :
    (Store.registers (promoted p width coupons count) : Store α).Usable p := by
  obtain ⟨sound, precision, _⟩ := promoted_spec (α := α) p width coupons count
  exact ⟨sound, precision⟩

private theorem updateList_knows {list : CouponList} (usable : (Store.list list width : Store α).Usable p)
    (taken : c ≠ Coupon.empty) :
    (updateList p list width c : Store α).Usable p ∧
      ∀ d ∈ list.coupons, (updateList p list width c : Store α).Knows p d := by
  have sound : (Store.list list width : Store α).Sound p := usable
  have admits := update_admits sound rfl taken true
  change Admits _ (updateList p list width c) p list.coupons c at admits
  generalize (updateList p list width c : Store α) = next at admits ⊢
  refine ⟨usable_of_sound admits.sound, fun d member => ?_⟩
  by_cases known : c ∈ list.coupons
  · rw [admits.known known]
    exact member
  · obtain ⟨all, held, _, made⟩ := admits.fresh known
    have kept : d ∈ all := held.symm.subset (List.mem_cons_of_mem c member)
    cases next with
    | list | set =>
      cases made
      exact kept
    | registers =>
      cases made
      exact knows_promoted kept _

private theorem updateSet_knows {set : CouponSet} (sound : set.Sound) (taken : c ≠ Coupon.empty) :
    (updateSet p set width c : Store α).Usable p ∧
      ∀ d ∈ set.coupons, (updateSet p set width c : Store α).Knows p d := by
  by_cases known : c ∈ set.coupons
  · rw [updateSet, if_pos ((CouponSet.contains_iff sound.keyed sound.room).mpr known)]
    exact ⟨sound, fun d member => member⟩
  · obtain ⟨next, keyed, all, ⟨load, become, _⟩ | ⟨_, _, become⟩⟩ :=
      updateSet_cases (α := α) p width sound taken known
    · rw [become]
      exact ⟨⟨keyed, load⟩, fun d member => all.symm.subset (List.mem_cons_of_mem c member)⟩
    · rw [become]
      exact ⟨usable_promoted _ _,
        fun d member => knows_promoted (all.symm.subset (List.mem_cons_of_mem c member)) _⟩

/-- One more coupon leaves the store usable, and what it knew is not lost. -/
theorem update_knows (usable : s.Usable p) (taken : c ≠ Coupon.empty) (inOrder : Bool) :
    (s.update p c inOrder).Usable p ∧ (s.Knows p d → (s.update p c inOrder).Knows p d) := by
  cases s with
  | list list width =>
    obtain ⟨next, knows⟩ := updateList_knows usable taken
    exact ⟨next, knows d⟩
  | set set width =>
    obtain ⟨next, knows⟩ := updateSet_knows (α := α) usable taken
    exact ⟨next, knows d⟩
  | registers array =>
    obtain ⟨sound, rfl⟩ := usable
    obtain ⟨next, precision, _, read⟩ := RegisterArray.update_spec sound c inOrder
    have inside : d.register array.precision.size < array.precision.size := Nat.mod_lt _ array.precision.size_pos
    refine ⟨⟨next, precision⟩, fun known => Nat.le_trans known ?_⟩
    rw [read _ inside]
    split_ifs
    · exact Nat.le_max_left _ _
    · exact Nat.le_refl _

theorem updateAll_knows (usable : s.Usable p) (stream : List Coupon) (taken : ∀ c ∈ stream, c ≠ Coupon.empty)
    (inOrder : Bool) :
    (stream.foldl (fun s c => s.update p c inOrder) s).Usable p ∧
      (s.Knows p d → (stream.foldl (fun s c => s.update p c inOrder) s).Knows p d) := by
  induction stream generalizing s with
  | nil => exact ⟨usable, id⟩
  | cons c rest ih =>
    obtain ⟨next, knows⟩ := update_knows (d := d) usable (taken c List.mem_cons_self) inOrder
    obtain ⟨last, kept⟩ := ih next (fun other member => taken other (List.mem_cons_of_mem c member))
    exact ⟨last, fun known => kept (knows known)⟩

end

end Store

end DistinctCount
