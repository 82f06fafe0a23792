import DistinctCount.CouponSet
import DistinctCount.Proofs.KeyedTable

namespace DistinctCount.CouponSet

variable {s : CouponSet} {c : Coupon} {coupons : List Coupon}

def keying : CouponTable.Keying Coupon := ⟨id, Coupon.slot⟩

/-- A set in which each member is found, with room for a search to end. -/
structure Sound (s : CouponSet) : Prop where
  keyed : s.table.Keyed keying
  load : s.isOverloaded = false

theorem Sound.fits (sound : s.Sound) : 4 * s.count ≤ 3 * s.table.size := CouponTable.load_iff.mp sound.load

theorem Sound.room (sound : s.Sound) : s.count < s.table.size := CouponTable.room_of_load sound.load

theorem count_eq (keyed : s.table.Keyed keying) : s.count = s.coupons.length := keyed.count_eq

theorem nodup_coupons (keyed : s.table.Keyed keying) : s.coupons.Nodup := by
  have distinct := keyed.nodup_ident
  rwa [show keying.ident = id from rfl, List.map_id] at distinct

theorem contains_iff (keyed : s.table.Keyed keying) (room : s.count < s.table.size) :
    s.contains c = true ↔ c ∈ s.coupons := by
  have search : s.search c = s.table.find keying c := rfl
  rcases keyed.find_cases room c with ⟨index, found, member, same⟩ | ⟨index, vacant, absent⟩
  · simp only [contains, search, found, true_iff]
    exact same ▸ member
  · simp only [contains, search, vacant, Bool.false_eq_true, false_iff]
    exact fun member => absent c member rfl

theorem lgSize_insert (s : CouponSet) (c : Coupon) : (s.insert c).table.lgSize = s.table.lgSize := by
  unfold insert
  split <;> rfl

theorem size_entries_insert (s : CouponSet) (c : Coupon) :
    (s.insert c).table.entries.size = s.table.entries.size := by
  unfold insert
  split
  · exact Array.size_setIfInBounds
  · rfl

theorem lgSize_insertAll (s : CouponSet) (coupons : List Coupon) :
    (s.insertAll coupons).table.lgSize = s.table.lgSize := by
  induction coupons generalizing s with
  | nil => rfl
  | cons c rest ih => exact (ih (s.insert c)).trans (lgSize_insert s c)

theorem size_entries_insertAll (s : CouponSet) (coupons : List Coupon) :
    (s.insertAll coupons).table.entries.size = s.table.entries.size := by
  induction coupons generalizing s with
  | nil => rfl
  | cons c rest ih => exact (ih (s.insert c)).trans (size_entries_insert s c)

theorem count_insert_le (s : CouponSet) (c : Coupon) : (s.insert c).count ≤ s.count + 1 := by
  unfold insert
  split
  · exact Nat.le_refl _
  · exact Nat.le_succ _

theorem insert_of_mem (keyed : s.table.Keyed keying) (member : c ∈ s.coupons) : s.insert c = s := by
  obtain ⟨index, found, _⟩ := keyed.find_of_mem member
  have search : s.search c = .found index := found
  simp only [insert, search]

theorem insert_of_not_mem (keyed : s.table.Keyed keying) (room : s.count < s.table.size)
    (taken : c ≠ Coupon.empty) (fresh : c ∉ s.coupons) :
    (s.insert c).table.Keyed keying ∧ (s.insert c).coupons.Perm (c :: s.coupons) ∧
      (s.insert c).table.lgSize = s.table.lgSize := by
  have search : s.search c = s.table.find keying c := rfl
  rcases keyed.find_cases room c with ⟨index, _, member, same⟩ | ⟨index, vacant, _⟩
  · exact absurd (same ▸ member) fresh
  · obtain ⟨bound, free⟩ := CouponTable.entry_of_find_vacant vacant
    have filled : s.insert c = ⟨s.table.fill index c⟩ := by simp only [insert, search, vacant]
    rw [filled]
    exact ⟨keyed.fill vacant taken rfl,
      CouponTable.occupied_fill (by rwa [keyed.size_entries]) free taken, rfl⟩

theorem insertAll_spec (keyed : s.table.Keyed keying) (taken : ∀ c ∈ coupons, c ≠ Coupon.empty)
    (distinct : (coupons ++ s.coupons).Nodup)
    (room : coupons.length + s.count ≤ s.table.size) :
    (s.insertAll coupons).table.Keyed keying ∧
      (s.insertAll coupons).coupons.Perm (coupons ++ s.coupons) ∧
      (s.insertAll coupons).table.lgSize = s.table.lgSize := by
  induction coupons generalizing s with
  | nil => exact ⟨keyed, .refl _, rfl⟩
  | cons c rest ih =>
    simp only [List.length_cons] at room
    have fresh : c ∉ s.coupons := fun member =>
      (List.nodup_cons.mp distinct).1 (List.mem_append_right _ member)
    obtain ⟨keyed', added, size'⟩ :=
      insert_of_not_mem keyed (by omega) (taken c (by simp)) fresh
    have moved : (rest ++ (s.insert c).coupons).Perm (c :: rest ++ s.coupons) :=
      (added.append_left rest).trans List.perm_middle
    have counted : (s.insert c).count = s.count + 1 := by
      rw [count_eq keyed', added.length_eq, List.length_cons, count_eq keyed]
    obtain ⟨keyed'', all, size''⟩ := ih keyed' (fun d member => taken d (by simp [member]))
      (moved.nodup_iff.mpr distinct) (by simp only [CouponTable.size, size', counted] at room ⊢; omega)
    exact ⟨keyed'', all.trans moved, size''.trans size'⟩

theorem grown_spec (keyed : s.table.Keyed keying) (room : s.count ≤ 2 * s.table.size) :
    s.grown.table.Keyed keying ∧ s.grown.coupons.Perm s.coupons ∧
      s.grown.table.lgSize = s.table.lgSize + 1 := by
  have none : (empty (s.table.lgSize + 1)).coupons = [] := CouponTable.occupied_empty _
  have taken : ∀ c ∈ s.coupons, c ≠ Coupon.empty :=
    fun c member => (CouponTable.mem_occupied.mp member).1
  obtain ⟨keyed', all, size'⟩ := insertAll_spec (s := empty (s.table.lgSize + 1))
    (CouponTable.keyed_empty _ _) taken
    (by rw [none, List.append_nil]; exact nodup_coupons keyed)
    (by
      rw [← count_eq keyed]
      simpa [empty, count, CouponTable.empty, CouponTable.size, Nat.pow_succ, Nat.mul_comm] using room)
  rw [none, List.append_nil] at all
  exact ⟨keyed', all, size'⟩

end DistinctCount.CouponSet
