import DistinctCount.Proofs.Restoring

namespace DistinctCount

open Reader (Reads)

namespace CouponList

variable {list : CouponList}

theorem reads_table {part : ImagePart} (short : list.count < capacity) :
    Reads (Reader.coupons capacity part)
      (couponBytes (list.coupons ++ List.replicate (capacity - list.count) Coupon.empty))
      (list.coupons ++ List.replicate (capacity - list.count) Coupon.empty) := by
  refine Reader.reads_coupons ?_
  rw [List.length_append, List.length_replicate, ← count]
  omega

end CouponList

theorem Seed.check_value (seed : Seed) : check seed.value = .ok seed := by
  have known : ofWord? seed.value = some seed := dif_pos seed.fingerprint_ne_zero
  rw [check, known, Option.elim_some]

namespace Flags

theorem layout_compact (layout : Layout) (empty outOfOrder pending : Bool) :
    (Flags.layout ⟨empty, layout = .compact, outOfOrder, pending⟩) = layout := by
  cases layout <;> rfl

end Flags

namespace Store

variable {p : Precision} {width : Width} {coupons : List Coupon}

theorem reads_readList {list : CouponList} (sound : (Store.list list width : Store Float).Sound p)
    (layout : Layout) (outOfOrder : Bool) :
    Reads (readList ⟨p, CouponList.lgCapacity, ⟨list.count = 0, layout = .compact, outOfOrder, false⟩,
        list.count, .list, width⟩)
      (body (.list list width) layout) (.list list width) := by
  obtain ⟨distinct, taken, short⟩ := sound
  have read : Reads (CouponList.read list.coupons >>= fun list => pure (.list list width : Store Float))
      [] (.list list width) := (CouponList.reads_read distinct taken).last (Reader.reads_pure _)
  unfold readList
  refine .unless (decide_eq_false (Nat.not_le_of_lt short)) (.unless (by simp) ?_)
  rw [Flags.layout_compact]
  cases layout with
  | compact => exact (Reader.reads_coupons rfl).last read
  | updatable =>
    refine .unless (by simp) ?_
    refine (CouponList.reads_table short).last (.unless ?_ ?_)
    · simp [CouponList.count]
    · have front : (list.coupons ++ List.replicate (CouponList.capacity - list.count)
          Coupon.empty).take list.count = list.coupons := List.take_left
      rw [front]
      exact read

theorem reads_readCompactSet {set : CouponSet} (sound : set.Sound) (least : CouponSet.lgMinSize ≤ set.table.lgSize)
    (most : set.table.lgSize ≤ lgMaxSetSize p) (flags : Flags) :
    ∃ other, Reads (readCompactSet ⟨p, set.table.lgSize, flags, 0, .set, width⟩ set.count)
        (couponBytes set.sorted) other ∧
      other.table.Keyed CouponSet.keying ∧ other.table.lgSize = set.table.lgSize ∧
      other.coupons.Perm set.coupons := by
  have keyed := sound.keyed
  have perm : set.sorted.Perm set.coupons := List.mergeSort_perm _ _
  have counted : set.sorted.length = set.count := by
    rw [perm.length_eq, CouponSet.count_eq keyed]
  have chosen : compactLgSize ⟨p, set.table.lgSize, flags, 0, .set, width⟩ set.count =
      set.table.lgSize := if_pos ⟨CouponSet.lgSizeFor_le_iff.mpr ⟨least, sound.load⟩, most⟩
  have distinct : set.sorted.Nodup := perm.nodup_iff.mpr (CouponSet.nodup_coupons keyed)
  have taken : ∀ c ∈ set.sorted, c ≠ Coupon.empty :=
    fun c member => (CouponTable.mem_occupied.mp (perm.subset member)).1
  have room : set.sorted.length ≤ 2 ^ set.table.lgSize := by
    rw [counted]
    exact Nat.le_of_lt sound.room
  have none : (CouponSet.empty set.table.lgSize).coupons = [] := CouponTable.occupied_empty _
  obtain ⟨keyed', all, size'⟩ := CouponSet.insertAll_spec (s := .empty set.table.lgSize)
    (CouponTable.keyed_empty _ _) taken (by rw [none, List.append_nil]; exact distinct) room
  rw [none, List.append_nil] at all
  refine ⟨_, ?_, keyed', size', all.trans perm⟩
  unfold readCompactSet
  simp only [chosen]
  refine .unless (decide_eq_false (Nat.not_lt_of_le most)) ?_
  exact (Reader.reads_coupons counted).last (CouponSet.reads_read distinct taken room)

private theorem reads_readUpdatableSet {set : CouponSet} {flags : Flags}
    (sound : (Store.set set width : Store Float).Sound p) :
    Reads (readUpdatableSet ⟨p, set.table.lgSize, flags, 0, .set, width⟩ set.count)
      (couponBytes set.table.entries.toList) set := by
  obtain ⟨inner, least, most⟩ := sound_set sound
  have keyed := inner.keyed
  have counted : set.table.entries.toList.length = 2 ^ set.table.lgSize := by
    rw [Array.length_toList, keyed.size_entries, CouponTable.size]
  have found : set.coupons.all set.contains = true :=
    List.all_eq_true.mpr (fun c member => (CouponSet.contains_iff keyed inner.room).mpr member)
  unfold readUpdatableSet
  refine .unless (decide_eq_false (not_or.mpr ?_)) ?_
  · exact ⟨Nat.not_lt_of_le least, Nat.not_lt_of_le most⟩
  refine (Reader.reads_coupons counted).last ?_
  rw [CouponTable.ofEntries_toList keyed]
  refine .unless (by simp) (.unless inner.load (.unless (by simp [found]) ?_))
  exact Reader.reads_pure set

theorem count_lt_word {set : CouponSet} (load : set.isOverloaded = false)
    (most : set.table.lgSize ≤ lgMaxSetSize p) :
    set.count < 256 ^ 4 := by
  have fine := p.le_twentyOne
  have : 2 ^ set.table.lgSize ≤ 2 ^ 21 :=
    Nat.pow_le_pow_right Nat.two_pos (Nat.le_trans most (Nat.le_trans (Nat.sub_le _ _) fine))
  have room : set.count < 2 ^ set.table.lgSize := CouponTable.room_of_load load
  omega

private theorem reads_readSet {set : CouponSet} (sound : (Store.set set width : Store Float).Sound p)
    (layout : Layout) (outOfOrder : Bool) :
    ∃ other, Reads (readSet ⟨p, set.table.lgSize, ⟨false, layout = .compact, outOfOrder, false⟩, 0, .set,
        width⟩) (body (.set set width) layout) (.set other width) ∧
      (Store.set other width : Store Float).Sound p ∧ other.coupons.Perm set.coupons ∧
      (layout = .updatable → other = set) := by
  have whole := sound
  obtain ⟨inner, least, most⟩ := sound_set sound
  obtain ⟨_, size, full, precision, fits⟩ := sound
  have count := count_lt_word inner.load most
  unfold readSet
  rw [Flags.layout_compact]
  cases layout with
  | compact =>
    obtain ⟨other, reads, keyed, size', perm⟩ :=
      reads_readCompactSet inner least most ⟨false, true, outOfOrder, false⟩
    have same : other.count = set.count := by
      rw [CouponSet.count_eq keyed, CouponSet.count_eq inner.keyed, perm.length_eq]
    refine ⟨other, ?_, ⟨keyed, by rw [size', size, same], same.symm ▸ full, precision, same.symm ▸ fits⟩, perm,
      fun updatable => by cases updatable⟩
    refine .unless (decide_eq_false (Nat.not_lt_of_le precision)) ?_
    exact (Reader.reads_number count).bind (reads.last (Reader.reads_pure _))
  | updatable =>
    refine ⟨set, ?_, whole, .refl _, fun _ => rfl⟩
    refine .unless (decide_eq_false (Nat.not_lt_of_le precision)) ?_
    exact (Reader.reads_number count).bind ((reads_readUpdatableSet whole).last (Reader.reads_pure _))

theorem Holds.of_twin {α : Type} [Scalar α] {s t : Store α} (holds : s.Holds p coupons)
    (twin : t.Twin s) (sound : t.Sound p) (exact : ∀ array, t.content = .registers array → array.Exact) :
    t.Holds p coupons := by
  refine ⟨sound, ⟨twin.mode.trans holds.represents.mode, fun kept content c => ?_,
    fun array content slot inside => ?_⟩, exact⟩
  · cases twin with
    | list list width => exact holds.represents.held kept content c
    | set width perm =>
      cases content
      rw [perm.mem_iff]
      exact holds.represents.held _ rfl c
    | registers twin => cases content
  · cases twin with
    | list | set => cases content
    | registers twin =>
      cases content
      have precision := (holds.registers).2.1
      rw [twin.get (by rwa [precision])]
      exact holds.represents.read _ rfl slot inside

end Store

namespace Sketch

variable {s : Sketch Float} {coupons : List Coupon}

theorem reads_store (holds : s.Holds coupons) (layout : Layout) :
    ∃ store, Reads (Store.read (s.preamble layout)) (s.store.body layout) store ∧
      store.Twin s.store ∧ store.Holds s.precision coupons ∧
      (layout = .updatable → store = s.store.primed) := by
  obtain ⟨p, seed, outOfOrder, store⟩ := s
  obtain ⟨holds, _⟩ := holds
  cases store with
  | list list width =>
    exact ⟨.list list width, .unless (by simp [preamble]) (Store.reads_readList holds.sound layout outOfOrder),
      .refl _, holds, fun _ => rfl⟩
  | set set width =>
    obtain ⟨other, reads, sound, perm, same⟩ := Store.reads_readSet holds.sound layout outOfOrder
    refine ⟨.set other width, .unless (by simp [preamble]) reads, .set width perm, ?_, fun updatable => ?_⟩
    · exact holds.of_twin (.set width perm) sound (fun _ content => by cases content)
    · rw [same updatable]
      rfl
  | registers array =>
    obtain ⟨exact, precision, _⟩ := holds.registers
    cases precision
    obtain ⟨other, reads, exact', twin, same⟩ := RegisterArray.reads_read exact
      ⟨false, layout = .compact, outOfOrder, array.isPending⟩ rfl
    rw [Flags.layout_compact] at reads same
    refine ⟨.registers other, .unless (by simp [preamble]) (reads.last (Reader.reads_pure _)), .registers twin, ?_,
      fun updatable => ?_⟩
    · refine holds.of_twin (.registers twin) ⟨exact'.toSound, twin.precision⟩ (fun _ content => ?_)
      cases content
      exact exact'
    · rw [same updatable]
      rfl

theorem preamble_lt (holds : s.Holds coupons) (layout : Layout) :
    (s.preamble layout).lgSize < 256 ∧ (s.preamble layout).count < 256 := by
  obtain ⟨p, seed, outOfOrder, store⟩ := s
  obtain ⟨holds, _⟩ := holds
  have fine := p.le_twentyOne
  cases store with
  | list list width =>
    obtain ⟨_, _, short⟩ := holds.sound
    exact ⟨(by decide : CouponList.lgCapacity < 256), Nat.lt_trans short (by decide)⟩
  | set set width =>
    obtain ⟨_, _, most⟩ := Store.sound_set holds.sound
    refine ⟨?_, Nat.zero_lt_succ _⟩
    have small : set.table.lgSize ≤ p.lg := Nat.le_trans most (Nat.sub_le _ _)
    exact Nat.lt_of_le_of_lt (Nat.le_trans small fine) (by decide)
  | registers array =>
    obtain ⟨exact, _, _⟩ := holds.registers
    have small := Nat.le_trans (RegisterArray.lgTableSize_le exact.registers.readable) (Exceptions.lgMaxSize_le _)
    exact ⟨Nat.lt_of_le_of_lt small (by decide), Nat.lt_of_le_of_lt exact.base_le (by decide)⟩

theorem reads_read {layout : Layout} {store : Store Float} (lgSize : (s.preamble layout).lgSize < 256)
    (count : (s.preamble layout).count < 256)
    (reads : Reads (Store.read (s.preamble layout)) (s.store.body layout) store) (seed : Seed) :
    Reads (read seed) ((s.preamble layout).bytes ++ s.store.body layout)
      ⟨s.precision, seed, s.outOfOrder, store⟩ := by
  have fields : (s.preamble layout).precision = s.precision ∧
      (s.preamble layout).flags.outOfOrder = s.outOfOrder := by
    unfold preamble
    split <;> exact ⟨rfl, rfl⟩
  unfold read
  refine (Preamble.reads_bytes _ lgSize count).bind (reads.last ?_)
  rw [fields.1, fields.2]
  exact Reader.reads_pure (⟨s.precision, seed, s.outOfOrder, store⟩ : Sketch Float)

theorem ofImage_of_reads {layout : Layout} {store : Store Float} (lgSize : (s.preamble layout).lgSize < 256)
    (count : (s.preamble layout).count < 256)
    (reads : Reads (Store.read (s.preamble layout)) (s.store.body layout) store) :
    ofImage s.seed.value (s.image layout) = .ok ⟨s.precision, s.seed, s.outOfOrder, store⟩ := by
  let t : Sketch Float := ⟨s.precision, s.seed, s.outOfOrder, store⟩
  have whole : Reads (read s.seed) ((s.preamble layout).bytes ++ s.store.body layout) t :=
    reads_read lgSize count reads s.seed
  have ran : (read s.seed).run' (s.image layout) = .ok t := by
    rw [StateT.run'_eq, image, writeOver, overlay, whole]
    rfl
  rw [ofImage, Seed.check_value]
  exact congrArg (Except.mapError Fault.image) ran

/-- A sketch is recovered from its image, and from whole tables as it was. -/
theorem ofImage_image (holds : s.Holds coupons) (layout : Layout) :
    ∃ t, ofImage s.seed.value (s.image layout) = .ok t ∧ t.Twin s ∧ t.Holds coupons ∧
      (layout = .updatable → t = s.primed) := by
  obtain ⟨store, reads, twin, known, same⟩ := reads_store holds layout
  obtain ⟨lgSize, count⟩ := preamble_lt holds layout
  let t : Sketch Float := ⟨s.precision, s.seed, s.outOfOrder, store⟩
  refine ⟨t, ofImage_of_reads lgSize count reads, ⟨rfl, rfl, rfl, twin⟩, ⟨known, holds.valued⟩,
    fun updatable => ?_⟩
  simp only [t, same updatable]
  rfl

end Sketch

end DistinctCount
