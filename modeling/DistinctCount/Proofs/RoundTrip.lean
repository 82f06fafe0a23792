import DistinctCount.Proofs.Dyadic
import DistinctCount.Proofs.Recovery

namespace DistinctCount

namespace Sketch

/-- The sketches that can come about: by presenting coupons, by copies, merges and upkeep, and from
images of such sketches. -/
inductive Reachable : Sketch Float → Prop
  | empty (p : Precision) (width : Width) (seed : Seed) : Reachable (empty p width seed)
  | addCoupon {s : Sketch Float} {c : Coupon} : Reachable s → 1 ≤ c.value → Reachable (s.addCoupon c)
  | copyAs {s : Sketch Float} (width : Width) : Reachable s → Reachable (s.copyAs width)
  | primed {s : Sketch Float} : Reachable s → Reachable s.primed
  | settled {s : Sketch Float} : Reachable s → Reachable (Snapshot.take s).toSketch
  | union {u v : SketchUnion Float} {s : Sketch Float} :
    Reachable u.merged → Reachable s → u.merge s = .ok v → Reachable v.merged
  | reloaded {s t : Sketch Float} (layout : Layout) :
    Reachable s → ofImage s.seed.value (s.image layout) = .ok t → Reachable t

variable {s t other : Sketch Float}

theorem Reachable.cleared (s : Sketch Float) : s.cleared.Reachable := .empty _ _ _

theorem Reachable.merge (left : s.Reachable) (right : other.Reachable) (merged : s.merge other = .ok t) :
    t.Reachable := by
  unfold Sketch.merge at merged
  obtain ⟨u, first, rest⟩ := exists_of_bind_eq_ok merged
  obtain ⟨v, second, result⟩ := exists_of_bind_eq_ok rest
  obtain rfl := Except.ok.inj result
  exact .copyAs _ (.union (.union (.empty _ _ _) left first) right second)

/-- Whatever a sketch went through, it holds the coupons behind it. -/
theorem Reachable.holds (reachable : s.Reachable) : ∃ coupons, s.Holds coupons := by
  induction reachable with
  | empty p width seed => exact ⟨[], holds_empty p width seed⟩
  | addCoupon _ valued known =>
    obtain ⟨coupons, holds⟩ := known
    exact ⟨_, holds_addCoupon holds valued⟩
  | copyAs width _ known =>
    obtain ⟨coupons, holds⟩ := known
    exact ⟨coupons, holds_copyAs holds width⟩
  | primed _ known =>
    obtain ⟨coupons, holds⟩ := known
    exact ⟨coupons, holds_primed holds⟩
  | settled _ known =>
    obtain ⟨coupons, holds⟩ := known
    exact ⟨coupons, holds_settled holds⟩
  | union _ _ merged known known' =>
    obtain ⟨coupons, holds⟩ := known
    obtain ⟨others, holds'⟩ := known'
    exact ⟨others ++ coupons, holds_of_merge holds holds' merged⟩
  | reloaded layout _ loaded known =>
    obtain ⟨coupons, holds⟩ := known
    obtain ⟨t, equal, _, again, _⟩ := ofImage_image holds layout
    rw [loaded] at equal
    cases equal
    exact ⟨coupons, again⟩

/-- A scan that is kept for readers does not show in an image. -/
theorem image_primed (s : Sketch Float) (layout : Layout) : s.primed.image layout = s.image layout := by
  obtain ⟨p, seed, outOfOrder, store⟩ := s
  cases store with
  | list | set => rfl
  | registers array =>
    obtain ⟨q, registers, tally, historic, upkeep⟩ := array
    cases upkeep with
    | settled => rfl
    | pending scanned => cases scanned <;> rfl

/-- Every sketch that can come about is accepted from its own image, in either layout. The sketch that is
read has that image again, table for table if whole tables were written, and every answer is the same. -/
theorem image_ofImage (reachable : s.Reachable) (layout : Layout) :
    ∃ t, ofImage s.seed.value (s.image layout) = .ok t ∧ t.image layout = s.image layout ∧
      t.Twin s ∧ t.width = s.width ∧ t.currentTally? = s.currentTally? ∧ t.AnswersLike s ∧
      (layout = .updatable → t = s.primed) := by
  obtain ⟨coupons, holds⟩ := reachable.holds
  obtain ⟨t, loaded, twin, again, same⟩ := ofImage_image holds layout
  refine ⟨t, loaded, ?_, twin, twin.store.width, twin.currentTally? again holds, twin.answers again holds,
    same⟩
  cases layout with
  | compact => exact twin.image_compact again holds
  | updatable => rw [same rfl, image_primed]

theorem Reachable.addCoupons {coupons : List Coupon} (reachable : s.Reachable)
    (valued : ∀ c ∈ coupons, 1 ≤ c.value) : (s.addCoupons coupons).Reachable := by
  induction coupons generalizing s with
  | nil => exact reachable
  | cons c rest ih =>
    exact ih (.addCoupon reachable (valued c (by simp))) (fun d member => valued d (by simp [member]))

/-- Nine coupons in a table. -/
def nineInTable : Sketch Float := (empty ⟨8, by decide, by decide⟩ .four .standard).addCoupons (Coupon.row 9 30)

theorem reachable_nineInTable : nineInTable.Reachable ∧ nineInTable.mode = .set :=
  ⟨.addCoupons (.empty _ _ _) (Coupon.valued_row 9 (by decide) (by decide)), rfl⟩

theorem reachable_allLeftBase : allLeftBase.Reachable ∧
    ∃ a, allLeftBase.store = .registers a ∧ a.isPending = true ∧ a.registers.exceptionCount = 1 :=
  ⟨.addCoupons (.empty _ _ _) (by decide), pending_allLeftBase⟩

/-- A whole table and registers with an exception and a pending tally come back from either image. -/
theorem image_ofImage_table_and_exception :
    (nineInTable.Reachable ∧ nineInTable.mode = .set) ∧
    (allLeftBase.Reachable ∧
      ∃ a, allLeftBase.store = .registers a ∧ a.isPending = true ∧ a.registers.exceptionCount = 1) ∧
    ∀ layout,
      (∃ t, ofImage nineInTable.seed.value (nineInTable.image layout) = .ok t ∧
        t.image layout = nineInTable.image layout ∧ t.Twin nineInTable) ∧
      ∃ t, ofImage allLeftBase.seed.value (allLeftBase.image layout) = .ok t ∧
        t.image layout = allLeftBase.image layout ∧ t.Twin allLeftBase ∧
          (layout = .updatable → t = allLeftBase.primed) := by
  refine ⟨reachable_nineInTable, reachable_allLeftBase, fun layout => ⟨?_, ?_⟩⟩
  · obtain ⟨t, loaded, same, twin, _⟩ := image_ofImage reachable_nineInTable.1 layout
    exact ⟨t, loaded, same, twin⟩
  · obtain ⟨t, loaded, same, twin, _, _, _, whole⟩ := image_ofImage reachable_allLeftBase.1 layout
    exact ⟨t, loaded, same, twin, whole⟩

end Sketch

end DistinctCount
