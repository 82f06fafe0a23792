import DistinctCount.Store
import DistinctCount.Proofs.Membership
import DistinctCount.Proofs.Merging

/-! When one representation gives way to the next. That depends on the precision and on the number of
distinct coupons alone: neither their order nor the layout of a table has a part in it. -/

namespace DistinctCount

namespace CouponSet

variable {count more lgSize : Nat}

theorem lgSizeFor_le_iff :
    lgSizeFor count ≤ lgSize ↔ lgMinSize ≤ lgSize ∧ CouponTable.overloads count lgSize = false := by
  have five : lgMinSize = 5 := rfl
  simp only [lgSizeFor, Nat.max_le, CouponTable.overloads_eq_false_iff]
  refine and_congr_right fun least => ?_
  have positive : 2 ^ 5 ≤ 2 ^ lgSize := Nat.pow_le_pow_right Nat.two_pos (five ▸ least)
  by_cases zero : (4 * count - 1) / 3 = 0
  · rw [zero, Nat.log2_zero]
    omega
  · rw [Nat.add_one_le_iff, Nat.log2_lt zero]
    omega

theorem lgSizeFor_mono (le : count ≤ more) : lgSizeFor count ≤ lgSizeFor more := by
  obtain ⟨least, room⟩ := lgSizeFor_le_iff.mp (Nat.le_refl (lgSizeFor more))
  refine lgSizeFor_le_iff.mpr ⟨least, ?_⟩
  rw [CouponTable.overloads_eq_false_iff] at room ⊢
  omega

/-- A table is doubled exactly when the next size is the one that is asked for. -/
theorem lgSizeFor_of_overloads (least : lgMinSize ≤ lgSize)
    (crowded : CouponTable.overloads count lgSize = true)
    (room : CouponTable.overloads count (lgSize + 1) = false) : lgSizeFor count = lgSize + 1 := by
  have small : ¬ lgSizeFor count ≤ lgSize := by
    rw [lgSizeFor_le_iff, crowded]
    simp
  have large := lgSizeFor_le_iff.mpr ⟨Nat.le_succ_of_le least, room⟩
  omega

end CouponSet

namespace Store

variable {α : Type} [Scalar α] {s : Store α} {p : Precision} {width : Width} {c : Coupon}
  {kept coupons : List Coupon} {count : Nat}

/-- The representation of `count` distinct coupons. -/
def modeFor (p : Precision) (count : Nat) : Mode :=
  if count < CouponList.capacity then .list
  else if lgMinForSet ≤ p.lg ∧ CouponTable.overloads count (lgMaxSetSize p) = false then .set
  else .registers

/-- Distinct coupons in a table of the size that their number asks for, or sound registers. -/
def Sound (p : Precision) : Store α → Prop
  | .list coupons _ =>
    coupons.coupons.Nodup ∧ Coupon.empty ∉ coupons.coupons ∧ coupons.count < CouponList.capacity
  | .set coupons _ =>
    coupons.table.Keyed CouponSet.keying ∧
      coupons.table.lgSize = CouponSet.lgSizeFor coupons.count ∧
      CouponList.capacity ≤ coupons.count ∧ lgMinForSet ≤ p.lg ∧
      CouponTable.overloads coupons.count (lgMaxSetSize p) = false
  | .registers array => array.Sound ∧ array.precision = p

theorem sound_empty (p : Precision) (width : Width) : (empty width : Store α).Sound p :=
  ⟨List.nodup_nil, List.not_mem_nil, by decide⟩

theorem sound_set {set : CouponSet} (sound : (Store.set set width : Store α).Sound p) :
    set.Sound ∧ CouponSet.lgMinSize ≤ set.table.lgSize ∧ set.table.lgSize ≤ lgMaxSetSize p := by
  obtain ⟨keyed, size, _, precision, fits⟩ := sound
  have five : CouponSet.lgMinSize ≤ lgMaxSetSize p := by
    have : lgMinForSet = 8 := rfl
    have : CouponSet.lgMinSize = 5 := rfl
    have : lgMaxSetSize p = p.lg - 3 := rfl
    omega
  have least := CouponSet.lgSizeFor_le_iff.mp (Nat.le_of_eq size.symm)
  refine ⟨⟨keyed, least.2⟩, least.1, ?_⟩
  rw [size]
  exact CouponSet.lgSizeFor_le_iff.mpr ⟨five, fits⟩

theorem sound_coupons (sound : s.Sound p) (content : s.content = .coupons kept) :
    kept.Nodup ∧ Coupon.empty ∉ kept ∧ s.couponCount? = some kept.length ∧
      s.mode = modeFor p kept.length := by
  cases s with
  | list list width =>
    obtain ⟨distinct, taken, short⟩ := sound
    cases content
    exact ⟨distinct, taken, rfl, (if_pos short).symm⟩
  | set set width =>
    obtain ⟨keyed, _, full, precision, fits⟩ := sound
    cases content
    have counted := CouponSet.count_eq keyed
    refine ⟨CouponSet.nodup_coupons keyed, CouponTable.empty_not_mem_occupied, ?_, ?_⟩
    · exact congrArg some counted
    · rw [← counted, modeFor, if_neg (Nat.not_lt_of_le full), if_pos ⟨precision, fits⟩]
      rfl
  | registers array => cases content

theorem promoted_spec (p : Precision) (width : Width) (coupons : List Coupon) (count : Nat) :
    (promoted p width coupons count : RegisterArray α).Sound ∧
      (promoted p width coupons count : RegisterArray α).precision = p ∧
      (promoted p width coupons count : RegisterArray α).width = width ∧
      ∀ slot < p.size, ∀ bound, (promoted p width coupons count : RegisterArray α).get slot ≤ bound ↔
        ∀ c ∈ coupons, c.register p.size = slot → c.value ≤ bound := by
  obtain ⟨zero, same, read⟩ := RegisterArray.sound_zeros (α := α) p width
  obtain ⟨sound, precision, width', bounds⟩ := RegisterArray.updateAll_spec zero coupons false
  refine ⟨⟨⟨sound.registers, sound.atBase_le⟩, sound.settled, sound.scanned⟩, precision,
    width'.trans same, fun slot inside bound => ?_⟩
  refine (bounds slot inside bound).trans ?_
  rw [read slot]
  simp only [Nat.zero_le, true_and]
  rfl

/-- What a store has made of its coupons: it still has them, or it is at registers that saw them. -/
def ContentOf (p : Precision) (width : Width) (coupons : List Coupon) : Content α → Prop
  | .coupons kept => kept = coupons
  | .registers array => array = promoted p width coupons coupons.length

/-- What becomes of a store with coupons when one more arrives: nothing if it is known, and otherwise
the representation that the number of coupons asks for. -/
structure Admits (s next : Store α) (p : Precision) (kept : List Coupon) (c : Coupon) : Prop where
  sound : next.Sound p
  width : next.width = s.width
  known : c ∈ kept → next = s
  fresh : c ∉ kept → ∃ all, all.Perm (c :: kept) ∧ next.mode = modeFor p all.length ∧
    ContentOf p s.width all next.content

private theorem admits_promoted (fresh : c ∉ kept) (all : coupons.Perm (c :: kept))
    (mode : modeFor p coupons.length = .registers) :
    Admits s (.registers (promoted p s.width coupons coupons.length)) p kept c := by
  obtain ⟨sound, precision, width, _⟩ := promoted_spec (α := α) p s.width coupons coupons.length
  exact ⟨⟨sound, precision⟩, width, fun known => absurd known fresh,
    fun _ => ⟨coupons, all, mode.symm, rfl⟩⟩

/-- A table that holds one coupon more, of the size that their number asks for. -/
private theorem admits_set {set : CouponSet} (fresh : c ∉ kept) (keyed : set.table.Keyed CouponSet.keying)
    (all : set.coupons.Perm (c :: kept)) (size : set.table.lgSize = CouponSet.lgSizeFor (kept.length + 1))
    (full : CouponList.capacity ≤ kept.length + 1) (precision : lgMinForSet ≤ p.lg)
    (small : set.table.lgSize ≤ lgMaxSetSize p) : Admits s (.set set s.width) p kept c := by
  have count : set.count = kept.length + 1 := by
    rw [CouponSet.count_eq keyed, all.length_eq, List.length_cons]
  have fits : CouponTable.overloads (kept.length + 1) (lgMaxSetSize p) = false :=
    (CouponSet.lgSizeFor_le_iff.mp (size ▸ small)).2
  refine ⟨⟨keyed, count.symm ▸ size, count.symm ▸ full, precision, count.symm ▸ fits⟩, rfl,
    fun known => absurd known fresh, fun _ => ⟨set.coupons, all, ?_, rfl⟩⟩
  rw [← CouponSet.count_eq keyed, count, modeFor, if_neg (Nat.not_lt_of_le full),
    if_pos ⟨precision, fits⟩]
  rfl

private theorem updateList_admits {list : CouponList}
    (sound : (Store.list list width : Store α).Sound p) (taken : c ≠ Coupon.empty) :
    Admits (.list list width) (updateList p list width c : Store α) p list.coupons c := by
  obtain ⟨distinct, used, short⟩ := sound
  have eight : CouponList.capacity = 8 := rfl
  by_cases known : c ∈ list.coupons
  · have same : updateList p list width c = (.list list width : Store α) := by
      have unchanged : list.insert c = list := by simp [CouponList.insert, CouponList.contains, known]
      simp [updateList, unchanged, CouponList.isFull, Nat.not_le_of_lt short]
    rw [same]
    exact ⟨⟨distinct, used, short⟩, rfl, fun _ => rfl, fun fresh => absurd known fresh⟩
  · have added : list.insert c = ⟨list.coupons ++ [c]⟩ := by
      simp [CouponList.insert, CouponList.contains, known]
    have all : (list.coupons ++ [c]).Perm (c :: list.coupons) := List.perm_append_singleton _ _
    have shown : (list.insert c).coupons = list.coupons ++ [c] := congrArg CouponList.coupons added
    have distinct' : (list.coupons ++ [c]).Nodup := shown ▸ list.nodup_insert c distinct
    have used' : ∀ d ∈ list.coupons ++ [c], d ≠ Coupon.empty := by
      intro d member
      rw [← shown, CouponList.mem_insert] at member
      rcases member with rfl | old
      · exact taken
      · exact fun same => used (same ▸ old)
    have counted : (list.coupons ++ [c]).length = list.count + 1 := by simp [CouponList.count]
    unfold updateList
    simp only [added, CouponList.isFull, CouponList.count, decide_eq_true_eq]
    split_ifs with full coarse
    · refine admits_promoted known all ?_
      rw [modeFor, if_neg (by omega), if_neg (by omega)]
    · have none : (CouponSet.empty CouponSet.lgMinSize).coupons = [] := CouponTable.occupied_empty _
      have last : list.coupons.length + 1 = 8 := by
        simp only [CouponList.count] at short counted
        omega
      obtain ⟨keyed, held, size⟩ := CouponSet.insertAll_spec
        (s := .empty CouponSet.lgMinSize) (CouponTable.keyed_empty _ _) used'
        (by rw [none, List.append_nil]; exact distinct')
        (by rw [List.length_append, List.length_singleton, last]; decide)
      rw [none, List.append_nil] at held
      have precision : lgMinForSet ≤ p.lg := Nat.le_of_not_lt coarse
      refine admits_set known keyed (held.trans all) ?_ (by omega) precision ?_
      · rw [last, size]
        decide
      · rw [size]
        have : lgMinForSet = 8 := rfl
        exact Nat.le_sub_of_add_le precision
    · refine ⟨⟨distinct', fun member => used' _ member rfl, ?_⟩, rfl, fun old => absurd old known,
        fun _ => ⟨list.coupons ++ [c], all, ?_, rfl⟩⟩
      · exact Nat.lt_of_not_le full
      · rw [modeFor, if_pos (by omega)]
        rfl

/-- All that a new coupon can do to a set: it finds room there, or the table is doubled for it, or the set
is given up. -/
theorem updateSet_cases {set : CouponSet} (p : Precision) (width : Width) (sound : set.Sound)
    (taken : c ≠ Coupon.empty) (fresh : c ∉ set.coupons) :
    ∃ next : CouponSet, next.table.Keyed CouponSet.keying ∧ next.coupons.Perm (c :: set.coupons) ∧
      ((next.isOverloaded = false ∧ (updateSet p set width c : Store α) = .set next width ∧
          (CouponTable.overloads (set.count + 1) set.table.lgSize = false ∧
            next.table.lgSize = set.table.lgSize ∨
          CouponTable.overloads (set.count + 1) set.table.lgSize = true ∧
            set.table.lgSize + lgSetMargin < p.lg ∧ next.table.lgSize = set.table.lgSize + 1)) ∨
        CouponTable.overloads (set.count + 1) set.table.lgSize = true ∧ p.lg ≤ set.table.lgSize + lgSetMargin ∧
          (updateSet p set width c : Store α) =
            .registers (promoted p width next.coupons next.coupons.length)) := by
  obtain ⟨keyed, all, size⟩ := CouponSet.insert_of_not_mem sound.keyed sound.room taken fresh
  have counted : (set.insert c).count = set.count + 1 := by
    rw [CouponSet.count_eq keyed, all.length_eq, List.length_cons, CouponSet.count_eq sound.keyed]
  have crowds : (set.insert c).isOverloaded = CouponTable.overloads (set.count + 1) set.table.lgSize := by
    rw [← counted, ← size]
    rfl
  unfold updateSet
  rw [if_neg (by rwa [CouponSet.contains_iff sound.keyed sound.room])]
  dsimp only
  rw [size, ← crowds]
  by_cases crowded : (set.insert c).isOverloaded = true
  · rw [if_pos crowded]
    by_cases large : p.lg ≤ set.table.lgSize + lgSetMargin
    · rw [if_pos large, CouponSet.count_eq keyed]
      exact ⟨set.insert c, keyed, all, .inr ⟨crowded, large, rfl⟩⟩
    · have fits := sound.fits
      have positive := set.table.size_pos
      have room : (set.insert c).count ≤ 2 * (set.insert c).table.size := by
        rw [counted, CouponTable.size, size]
        change set.count + 1 ≤ 2 * set.table.size
        omega
      obtain ⟨keyed', all', size'⟩ := CouponSet.grown_spec keyed room
      have counted' : (set.insert c).grown.count = set.count + 1 := by
        rw [CouponSet.count_eq keyed', all'.length_eq, ← CouponSet.count_eq keyed, counted]
      have load : (set.insert c).grown.isOverloaded = false := by
        refine CouponTable.load_iff.mpr ?_
        change 4 * (set.insert c).grown.count ≤ _
        rw [counted', CouponTable.size, size', size, Nat.pow_succ]
        change 4 * (set.count + 1) ≤ 3 * (set.table.size * 2)
        omega
      rw [if_neg large]
      exact ⟨(set.insert c).grown, keyed', all'.trans all, .inl ⟨load, rfl,
        .inr ⟨crowded, Nat.lt_of_not_le large, by rw [size', size]⟩⟩⟩
  · rw [if_neg crowded]
    have load := Bool.eq_false_iff.mpr crowded
    exact ⟨set.insert c, keyed, all, .inl ⟨load, rfl, .inl ⟨load, size⟩⟩⟩

private theorem updateSet_admits {set : CouponSet}
    (sound : (Store.set set width : Store α).Sound p) (taken : c ≠ Coupon.empty) :
    Admits (.set set width) (updateSet p set width c : Store α) p set.coupons c := by
  obtain ⟨inner, least, most⟩ := sound_set sound
  have outer := sound
  obtain ⟨keyed, size, full, precision, fits⟩ := sound
  by_cases known : c ∈ set.coupons
  · have same : updateSet p set width c = (.set set width : Store α) := by
      rw [updateSet, if_pos ((CouponSet.contains_iff keyed inner.room).mpr known)]
    rw [same]
    exact ⟨outer, rfl, fun _ => rfl, fun fresh => absurd known fresh⟩
  · have length : set.coupons.length = set.count := (CouponSet.count_eq keyed).symm
    have margin : lgMaxSetSize p = p.lg - lgSetMargin := rfl
    obtain ⟨next, keyed', all, ⟨load, become, sized⟩ | ⟨crowded, large, become⟩⟩ :=
      updateSet_cases (α := α) p width inner taken known
    · rw [become]
      have enough : CouponTable.overloads (set.count + 1) next.table.lgSize = false := by
        rw [← length, ← List.length_cons, ← all.length_eq, ← CouponSet.count_eq keyed']
        exact load
      rcases sized with ⟨_, same⟩ | ⟨crowded, small, doubled⟩
      · have chosen : set.table.lgSize = CouponSet.lgSizeFor (set.count + 1) := by
          have small := CouponSet.lgSizeFor_le_iff.mpr ⟨least, same ▸ enough⟩
          have grows := CouponSet.lgSizeFor_mono (Nat.le_add_right set.count 1)
          omega
        exact admits_set known keyed' all (by rw [same, length, chosen]) (by omega) precision (same ▸ most)
      · have chosen : set.table.lgSize + 1 = CouponSet.lgSizeFor (set.count + 1) := by
          rw [CouponSet.lgSizeFor_of_overloads least crowded (doubled ▸ enough)]
        exact admits_set known keyed' all (by rw [doubled, length, chosen]) (by omega) precision (by omega)
    · rw [become]
      have equal : set.table.lgSize = lgMaxSetSize p := by omega
      refine admits_promoted known all ?_
      rw [all.length_eq, List.length_cons, length, modeFor, if_neg (by omega), ← equal, crowded,
        if_neg (by simp)]

/-- One more coupon in a store that still has its coupons. -/
theorem update_admits (sound : s.Sound p) (content : s.content = .coupons kept)
    (taken : c ≠ Coupon.empty) (inOrder : Bool) : Admits s (s.update p c inOrder) p kept c := by
  cases s with
  | list list width =>
    cases content
    exact updateList_admits sound taken
  | set set width =>
    cases content
    exact updateSet_admits sound taken
  | registers array => cases content

end Store

end DistinctCount
