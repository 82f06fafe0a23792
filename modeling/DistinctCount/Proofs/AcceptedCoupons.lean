import DistinctCount.Proofs.Acceptance
import DistinctCount.Proofs.Recovery
import DistinctCount.Proofs.Retention

/-! Coupons that were accepted. A table that is adopted may be larger than updates would have made it, and
it may repeat a coupon. Without a repetition it is as good as one that was built. -/

namespace DistinctCount

open Reader (Gives)

namespace CouponList

variable {bytes rest : List UInt8} {coupons : List Coupon} {list : CouponList}

/-- The coupons of an accepted list are distinct, and none of them looks free. -/
theorem nodup_of_read (given : Gives (read coupons) bytes list rest) :
    list.coupons = coupons ∧ coupons.Nodup ∧ Coupon.empty ∉ coupons := by
  let Inv (list : CouponList) (left : List Coupon) : Prop :=
    list.coupons ++ left = coupons ∧ list.coupons.Nodup ∧ Coupon.empty ∉ list.coupons
  have start : Inv empty coupons := ⟨rfl, List.nodup_nil, List.not_mem_nil⟩
  have kept := given.foldlM Inv (fun list c index left bytes next rest reached step => ?_) start
  · obtain ⟨⟨whole, distinct, taken⟩, _⟩ := kept
    rw [List.append_nil] at whole
    exact ⟨whole, whole ▸ distinct, whole ▸ taken⟩
  · obtain ⟨whole, distinct, taken⟩ := reached
    obtain ⟨used, step⟩ := step.unless
    obtain ⟨fresh, step⟩ := step.unless
    obtain ⟨rfl, rfl⟩ := step.pure
    have absent : c ∉ list.coupons := by simpa [contains] using fresh
    have added : (list.insert c).coupons = list.coupons ++ [c] := by simp [insert, contains, absent]
    refine ⟨⟨?_, list.nodup_insert c distinct, fun member => ?_⟩, rfl⟩
    · rw [added, List.append_assoc]
      exact whole
    · rcases (list.mem_insert c _).mp member with same | old
      · exact of_decide_eq_false used same.symm
      · exact taken old

end CouponList

/-- A table in which every entry is found under its key, and no key is repeated. -/
theorem CouponTable.keyed_of_found {κ : Type} [DecidableEq κ] {K : Keying κ} {t : CouponTable}
    (size_entries : t.entries.size = t.size) (count_eq : t.count = t.occupied.length)
    (found : ∀ c ∈ t.occupied, ∃ index, t.find K (K.ident c) = .found index)
    (distinct : (t.occupied.map K.ident).Nodup) : t.Keyed K := by
  rw [List.Nodup, List.pairwise_map, occupied, List.pairwise_filter, List.pairwise_iff_getElem] at distinct
  have apart (i j : Nat) (left : t.entry i ≠ Coupon.empty) (right : t.entry j ≠ Coupon.empty)
      (before : i < j) : K.ident (t.entry i) ≠ K.ident (t.entry j) := by
    have inside (index : Nat) (taken : t.entry index ≠ Coupon.empty) : index < t.entries.toList.length :=
      lt_of_taken taken
    have here (index : Nat) (bound : index < t.entries.toList.length) :
        t.entries.toList[index] = t.entry index := by
      simp [entry, show index < t.entries.size by simpa using bound]
    have pair := distinct i j (inside i left) (inside j right) before
    rw [here i (inside i left), here j (inside j right)] at pair
    exact pair (by simpa using left) (by simpa using right)
  refine ⟨size_entries, count_eq, fun index taken => ?_⟩
  obtain ⟨other, met⟩ := found _ (mem_occupied.mpr ⟨taken, index, rfl⟩)
  obtain ⟨used, same⟩ := entry_of_find_found met
  rcases Nat.lt_trichotomy index other with before | rfl | behind
  · exact absurd same.symm (apart index other taken used before)
  · exact met
  · exact absurd same (apart other index used taken behind)

namespace CouponSet

variable {bytes rest : List UInt8} {coupons : List Coupon} {set : CouponSet} {lgSize : Nat}

theorem keyed_of_read (room : coupons.length ≤ 2 ^ lgSize) (given : Gives (read lgSize coupons) bytes set rest) :
    set.table.Keyed keying ∧ set.coupons.Perm coupons ∧ set.table.lgSize = lgSize := by
  let Inv (set : CouponSet) (left : List Coupon) : Prop :=
    set.table.Keyed keying ∧ set.table.lgSize = lgSize ∧ (set.coupons ++ left).Perm coupons
  have start : Inv (empty lgSize) coupons := by
    refine ⟨CouponTable.keyed_empty _ _, rfl, ?_⟩
    rw [show (empty lgSize).coupons = [] from CouponTable.occupied_empty _, List.nil_append]
  have kept := given.foldlM Inv (fun set c index left bytes next rest reached step => ?_) start
  · obtain ⟨⟨keyed, size, held⟩, _⟩ := kept
    rw [List.append_nil] at held
    exact ⟨keyed, held, size⟩
  · obtain ⟨keyed, size, held⟩ := reached
    obtain ⟨used, step⟩ := step.unless
    obtain ⟨fresh, step⟩ := step.unless
    obtain ⟨rfl, rfl⟩ := step.pure
    have length := held.length_eq
    rw [List.length_append, List.length_cons, ← count_eq keyed] at length
    have free : set.count < set.table.size := by
      rw [CouponTable.size, size]
      omega
    have absent : c ∉ set.coupons := by
      rw [← contains_iff keyed free, fresh]
      exact Bool.false_ne_true
    obtain ⟨keyed', added, size'⟩ := insert_of_not_mem keyed free (of_decide_eq_false used) absent
    refine ⟨⟨keyed', size'.trans size, ?_⟩, rfl⟩
    exact ((added.append_right left).trans List.perm_middle.symm).trans held

end CouponSet

namespace Store

variable {bytes rest : List UInt8} {preamble : Preamble} {s : Store Float} {set : CouponSet} {count : Nat}

private theorem exists_list_of_listed {coupons : List Coupon} {width : Width}
    (short : coupons.length < CouponList.capacity)
    (given : Gives (CouponList.read coupons >>= fun list => pure (.list list width : Store Float)) bytes s rest) :
    ∃ list, s = .list list width ∧ list.coupons.Nodup ∧ Coupon.empty ∉ list.coupons ∧
      list.count < CouponList.capacity := by
  obtain ⟨list, mid, read, given⟩ := given.bind
  obtain ⟨rfl, rfl⟩ := given.pure
  obtain ⟨same, distinct, taken⟩ := CouponList.nodup_of_read read
  have few : list.count < CouponList.capacity := by
    rw [CouponList.count, same]
    exact short
  exact ⟨list, rfl, same ▸ distinct, same ▸ taken, few⟩

/-- Both layouts of a list are read in order, and each coupon is compared with those before it. -/
theorem exists_list_of_readList (given : Gives (readList preamble) bytes s rest) :
    ∃ list, s = .list list preamble.width ∧ list.coupons.Nodup ∧ Coupon.empty ∉ list.coupons ∧
      list.count < CouponList.capacity := by
  unfold readList at given
  obtain ⟨few, given⟩ := given.unless
  obtain ⟨_, given⟩ := given.unless
  have short : preamble.count < CouponList.capacity := Nat.lt_of_not_le (of_decide_eq_false few)
  split at given
  · obtain ⟨coupons, mid, taken, given⟩ := given.bind
    obtain ⟨rfl, _⟩ := taken.coupons
    exact exists_list_of_listed (by simpa using short) given
  · obtain ⟨_, given⟩ := given.unless
    obtain ⟨table, mid, taken, given⟩ := given.bind
    obtain ⟨_, given⟩ := given.unless
    exact exists_list_of_listed (Nat.lt_of_le_of_lt (List.length_take_le _ _) short) given

/-- What an image says of a set: its table has room, and is not larger than a set's may be. -/
structure Admissible (p : Precision) (set : CouponSet) : Prop where
  precision : lgMinForSet ≤ p.lg
  least : CouponSet.lgMinSize ≤ set.table.lgSize
  most : set.table.lgSize ≤ lgMaxSetSize p
  load : set.isOverloaded = false
  counted : set.count = set.coupons.length

theorem compactLgSize_spec (preamble : Preamble) (count : Nat) :
    CouponSet.lgMinSize ≤ compactLgSize preamble count ∧
      CouponTable.overloads count (compactLgSize preamble count) = false ∧
        count ≤ 2 ^ compactLgSize preamble count := by
  have enough : CouponSet.lgSizeFor count ≤ compactLgSize preamble count := by
    unfold compactLgSize
    dsimp only
    split_ifs with named
    · exact named.1
    · exact Nat.le_refl _
  obtain ⟨least, load⟩ := CouponSet.lgSizeFor_le_iff.mp enough
  refine ⟨least, load, ?_⟩
  rw [CouponTable.overloads_eq_false_iff] at load
  omega

/-- Coupons that were written one after the other are told apart as they are read. -/
private theorem nodup_of_readCompactSet {coupons : List Coupon} (counted : coupons.length = count)
    (given : Gives (readCompactSet preamble count) (couponBytes coupons ++ bytes) set rest) :
    coupons.Nodup := by
  unfold readCompactSet at given
  obtain ⟨_, given⟩ := given.unless
  have read := given.after (Reader.reads_coupons counted)
  obtain ⟨_, _, room⟩ := compactLgSize_spec preamble count
  obtain ⟨keyed, held, _⟩ := CouponSet.keyed_of_read (counted.trans_le room) read
  exact held.nodup_iff.mp (CouponSet.nodup_coupons keyed)

private theorem admissible_of_readCompactSet (precision : lgMinForSet ≤ preamble.precision.lg)
    (given : Gives (readCompactSet preamble count) bytes set rest) :
    Admissible preamble.precision set ∧ set.table.Keyed CouponSet.keying := by
  unfold readCompactSet at given
  obtain ⟨small, given⟩ := given.unless
  obtain ⟨coupons, mid, taken, given⟩ := given.bind
  obtain ⟨listed, _⟩ := taken.coupons
  have length : coupons.length = count := by simp [listed]
  have most := Nat.le_of_not_lt (of_decide_eq_false small)
  obtain ⟨least, load, room⟩ := compactLgSize_spec preamble count
  obtain ⟨keyed, held, size⟩ := CouponSet.keyed_of_read (length.trans_le room) given
  have counted : set.count = count := by rw [CouponSet.count_eq keyed, held.length_eq, length]
  refine ⟨⟨precision, size ▸ least, size ▸ most, ?_, CouponSet.count_eq keyed⟩, keyed⟩
  rw [CouponSet.isOverloaded, CouponTable.isOverloaded, size]
  exact counted ▸ load

/-- A table that is adopted finds its coupons, though it may hold one of them more than once. -/
private theorem admissible_of_readUpdatableSet (precision : lgMinForSet ≤ preamble.precision.lg)
    (given : Gives (readUpdatableSet preamble count) bytes set rest) :
    Admissible preamble.precision set ∧ set.table.entries.size = set.table.size ∧
      (set.coupons.Nodup → set.table.Keyed CouponSet.keying) := by
  unfold readUpdatableSet at given
  obtain ⟨sized, given⟩ := given.unless
  obtain ⟨entries, mid, taken, given⟩ := given.bind
  obtain ⟨_, given⟩ := given.unless
  obtain ⟨load, given⟩ := given.unless
  obtain ⟨found, given⟩ := given.unless
  obtain ⟨rfl, rfl⟩ := given.pure
  obtain ⟨listed, _⟩ := taken.coupons
  obtain ⟨least, most⟩ := not_or.mp (of_decide_eq_false sized)
  let set : CouponSet := ⟨.ofEntries preamble.lgSize entries.toArray⟩
  have counted : set.count = set.coupons.length := List.countP_eq_length_filter
  have sized : set.table.entries.size = set.table.size := by
    simp [set, CouponTable.ofEntries, CouponTable.size, listed]
  refine ⟨⟨precision, Nat.le_of_not_lt least, Nat.le_of_not_lt most, load, counted⟩, sized, ?_⟩
  intro distinct
  refine CouponTable.keyed_of_found sized counted (fun c member => ?_) (by rwa [CouponSet.keying, List.map_id])
  · have contained : set.contains c = true := by
      have all : set.coupons.all set.contains = true := by simpa using found
      exact List.all_eq_true.mp all c member
    unfold CouponSet.contains at contained
    split at contained
    · exact ⟨_, ‹_›⟩
    · cases contained

theorem exists_set_of_readSet (given : Gives (readSet preamble) bytes s rest) :
    ∃ set, s = .set set preamble.width ∧ Admissible preamble.precision set ∧
      set.table.entries.size = set.table.size ∧ (preamble.flags.layout = .compact → set.coupons.Nodup) ∧
      (set.coupons.Nodup → set.table.Keyed CouponSet.keying) := by
  unfold readSet at given
  obtain ⟨coarse, given⟩ := given.unless
  have precision := Nat.le_of_not_lt (of_decide_eq_false coarse)
  obtain ⟨count, mid, _, given⟩ := given.bind
  split at given
  · obtain ⟨set, mid, read, given⟩ := given.bind
    obtain ⟨rfl, rfl⟩ := given.pure
    obtain ⟨admissible, keyed⟩ := admissible_of_readCompactSet precision read
    exact ⟨set, rfl, admissible, keyed.size_entries, fun _ => CouponSet.nodup_coupons keyed, fun _ => keyed⟩
  · rename_i layout
    obtain ⟨set, mid, read, given⟩ := given.bind
    obtain ⟨rfl, rfl⟩ := given.pure
    obtain ⟨admissible, sized, keyed⟩ := admissible_of_readUpdatableSet precision read
    exact ⟨set, rfl, admissible, sized, fun compact => absurd (layout.symm.trans compact) (by decide), keyed⟩

/-- A store that was accepted with its coupons. The list has no repetition, and in the set they are found
unless one of them is repeated. -/
inductive Accepted (p : Precision) : Store Float → List Coupon → Prop
  | list {list : CouponList} {width : Width} (distinct : list.coupons.Nodup)
    (taken : Coupon.empty ∉ list.coupons) (short : list.count < CouponList.capacity) :
    Accepted p (.list list width) list.coupons
  | set {set : CouponSet} {width : Width} (admissible : Admissible p set)
    (keyed : set.coupons.Nodup → set.table.Keyed CouponSet.keying) :
    Accepted p (.set set width) set.coupons

variable {p : Precision} {kept : List Coupon}

theorem accepted_of_read (given : Gives (read preamble) bytes s rest) (content : s.content = .coupons kept) :
    Accepted preamble.precision s kept ∧
      (s.mode = .list ∨ preamble.flags.layout = .compact → kept.Nodup) := by
  rcases mode_cases_of_read given with list | set | ⟨array, _, rfl, _⟩
  · obtain ⟨list, rfl, distinct, taken, short⟩ := exists_list_of_readList list
    cases content
    exact ⟨.list distinct taken short, fun _ => distinct⟩
  · obtain ⟨set, rfl, admissible, _, compact, keyed⟩ := exists_set_of_readSet set
    cases content
    refine ⟨.set admissible keyed, fun either => ?_⟩
    rcases either with list | layout
    · cases list
    · exact compact layout
  · cases content

theorem Accepted.taken (accepted : Accepted p s kept) : Coupon.empty ∉ kept := by
  cases accepted with
  | list _ taken _ => exact taken
  | set _ _ => exact fun member => (CouponTable.mem_occupied.mp member).1 rfl

theorem Accepted.counted (accepted : Accepted p s kept) : s.couponCount? = some kept.length := by
  cases accepted with
  | list _ _ _ => rfl
  | set admissible _ => exact congrArg some admissible.counted

theorem Accepted.usable (accepted : Accepted p s kept) (distinct : kept.Nodup) : s.Usable p := by
  cases accepted with
  | list _ taken short => exact ⟨distinct, taken, short⟩
  | set admissible keyed => exact ⟨keyed distinct, admissible.load⟩

theorem Accepted.knows {c : Coupon} (accepted : Accepted p s kept) (member : c ∈ kept) : s.Knows p c := by
  cases accepted with
  | list _ _ _ => exact member
  | set _ _ => exact member

end Store

namespace Sketch

variable {t u : Sketch Float} {kept : List Coupon} {bytes : List UInt8} {seed : UInt32}

theorem accepted_of_ofImage (accepted : ofImage seed bytes = .ok t) (content : t.store.content = .coupons kept) :
    t.store.Accepted t.precision kept ∧ (t.mode = .list ∨ layoutOf bytes = .compact → kept.Nodup) := by
  obtain ⟨preamble, _, _, layout, precision, given⟩ := exists_preamble_of_ofImage accepted
  obtain ⟨known, distinct⟩ := Store.accepted_of_read given content
  exact ⟨precision ▸ known, fun either => distinct (either.imp_right layout.trans)⟩

private theorem accepted_lt (accepted : t.store.Accepted t.precision kept) :
    (t.preamble .compact).lgSize < 256 ∧ (t.preamble .compact).count < 256 := by
  obtain ⟨p, seed, outOfOrder, store⟩ := t
  have fine := p.le_twentyOne
  cases accepted with
  | list _ _ short => exact ⟨(by decide : CouponList.lgCapacity < 256), Nat.lt_trans short (by decide)⟩
  | set admissible _ =>
    refine ⟨?_, Nat.zero_lt_succ _⟩
    have small := Nat.le_trans admissible.most (Nat.sub_le _ _)
    exact Nat.lt_of_le_of_lt (Nat.le_trans small fine) (by decide)

private theorem again_of_nodup (accepted : t.store.Accepted t.precision kept) (distinct : kept.Nodup) :
    ∃ u again, ofImage t.seed.value (t.image .compact) = .ok u ∧ u.store.content = .coupons again ∧
      again.Perm kept := by
  obtain ⟨lgSize, count⟩ := accepted_lt accepted
  obtain ⟨p, known, outOfOrder, store⟩ := t
  cases accepted with
  | @list list width _ taken short =>
    have sound : (Store.list list width : Store Float).Sound p := ⟨distinct, taken, short⟩
    have reads := Store.reads_readList sound .compact outOfOrder
    exact ⟨_, _, ofImage_of_reads lgSize count (.unless (by simp [preamble]) reads), rfl, .refl _⟩
  | @set set width admissible keyed =>
    have sound : set.Sound := ⟨keyed distinct, admissible.load⟩
    obtain ⟨other, reads, _, _, perm⟩ := @Store.reads_readCompactSet p width set sound admissible.least
      admissible.most ⟨false, true, outOfOrder, false⟩
    have number := Store.count_lt_word admissible.load admissible.most
    refine ⟨⟨p, known, outOfOrder, .set other width⟩, other.coupons, ?_, rfl, perm⟩
    refine ofImage_of_reads lgSize count (.unless (by simp [preamble]) ?_)
    refine .unless (decide_eq_false (Nat.not_lt_of_le admissible.precision)) ?_
    exact (Reader.reads_number number).bind (reads.last (Reader.reads_pure _))

/-- The compact image of a set is read coupon by coupon, so that a repetition is noticed. -/
private theorem nodup_of_again (accepted : t.store.Accepted t.precision kept)
    (again : ofImage t.seed.value (t.image .compact) = .ok u) : kept.Nodup := by
  obtain ⟨lgSize, count⟩ := accepted_lt accepted
  obtain ⟨preamble, rest, first, _, _, given⟩ := exists_preamble_of_ofImage again
  have read := Preamble.reads_bytes _ lgSize count
  rw [image, writeOver, overlay, List.append_assoc] at first given
  obtain ⟨rfl, body⟩ := first.eq_of_reads read
  rw [body] at given
  obtain ⟨p, known, outOfOrder, store⟩ := t
  cases accepted with
  | list distinct _ _ => exact distinct
  | @set set width admissible _ =>
    have perm : set.sorted.Perm set.coupons := List.mergeSort_perm _ _
    have number := Store.count_lt_word admissible.load admissible.most
    obtain ⟨_, given⟩ := Gives.unless given
    obtain ⟨_, given⟩ := Gives.unless given
    rw [Store.body, List.append_assoc] at given
    have given := given.after (Reader.reads_number number)
    obtain ⟨other, _, given, _⟩ := given.bind
    have counted : set.sorted.length = set.count := perm.length_eq.trans admissible.counted.symm
    exact perm.nodup_iff.mp (Store.nodup_of_readCompactSet counted given)

/-- Accepted coupons are taken, and they are counted. In a list, or from a compact image, they are distinct.
A whole table may repeat a coupon, and the compact image of the sketch is accepted if and only if it does
not. Then it gives the same coupons again, and whatever is presented later, once there are registers each
coupon's register is no smaller than its value. -/
theorem coupons_of_ofImage (accepted : ofImage seed bytes = .ok t) (content : t.store.content = .coupons kept) :
    (∀ c ∈ kept, c ≠ Coupon.empty ∧ c.value ≤ Coupon.maxValue) ∧
    t.store.couponCount? = some kept.length ∧
    (t.mode = .list ∨ layoutOf bytes = .compact → kept.Nodup) ∧
    ((∃ u, ofImage t.seed.value (t.image .compact) = .ok u) ↔ kept.Nodup) ∧
    (∀ u, ofImage t.seed.value (t.image .compact) = .ok u →
      ∃ again, u.store.content = .coupons again ∧ again.Perm kept) ∧
    (kept.Nodup → ∀ stream array, (∀ c ∈ stream, 1 ≤ c.value) →
      (t.addCoupons stream).store = .registers array →
        ∀ c ∈ kept, c.value ≤ array.get (c.register array.precision.size)) := by
  obtain ⟨known, distinct⟩ := accepted_of_ofImage accepted content
  refine ⟨fun c member => ⟨fun free => known.taken (free ▸ member), c.value_le_maxValue⟩, known.counted,
    distinct, ⟨?_, ?_⟩, fun u again => ?_, fun distinct stream array valued registers c member => ?_⟩
  · rintro ⟨u, again⟩
    exact nodup_of_again known again
  · intro distinct
    obtain ⟨u, _, again, _⟩ := again_of_nodup known distinct
    exact ⟨u, again⟩
  · obtain ⟨v, others, same, held, perm⟩ := again_of_nodup known (nodup_of_again known again)
    cases again.symm.trans same
    exact ⟨others, held, perm⟩
  · have used : ∀ c ∈ stream, c ≠ Coupon.empty := fun c member => Coupon.ne_empty_of_valued (valued c member)
    obtain ⟨usable, kept⟩ :=
      Store.updateAll_knows (d := c) (known.usable distinct) stream used (!t.outOfOrder)
    have after := kept (known.knows member)
    rw [addCoupons_eq] at registers
    change stream.foldl (fun s c => s.update t.precision c !t.outOfOrder) t.store = _ at registers
    rw [registers] at usable after
    rw [usable.2]
    exact after

/-- A whole table of 32 entries, of which these are the first two. -/
def twoCoupons (first second : List UInt8) : List UInt8 :=
  [3, 1, 7, 8, 5, 0, 0, 1] ++ [2, 0, 0, 0] ++ first ++ second ++ List.replicate 120 0

set_option maxRecDepth 4000 in
/-- Two coupons of a table come back from the compact image. -/
theorem compact_of_whole_table :
    ∃ t kept, ofImage Seed.standard.value (twoCoupons [0, 0, 0, 4] [1, 0, 0, 8]) = .ok t ∧
      t.store.content = .coupons kept ∧ kept = [.pack 0 1, .pack 1 2] ∧
        ∃ u again, ofImage t.seed.value (t.image .compact) = .ok u ∧ u.store.content = .coupons again ∧
          again.Perm kept := by
  have read : ∃ t, ofImage Seed.standard.value (twoCoupons [0, 0, 0, 4] [1, 0, 0, 8]) = .ok t ∧
      t.store.content = .coupons [.pack 0 1, .pack 1 2] := by
    rw [ofImage, Seed.check_value]
    exact ⟨_, rfl, rfl⟩
  obtain ⟨t, accepted, content⟩ := read
  obtain ⟨_, _, _, readable, same, _⟩ := coupons_of_ofImage accepted content
  obtain ⟨u, again⟩ := readable.mpr (by decide)
  obtain ⟨others, held, perm⟩ := same u again
  exact ⟨t, _, accepted, content, rfl, u, others, again, held, perm⟩

set_option maxRecDepth 4000 in
/-- A table that repeats a coupon is accepted and counts it twice, but the compact image of that sketch is
not accepted. A list of a coupon without a value is accepted as well. -/
theorem repeated_coupon_accepted :
    (∃ t kept, ofImage Seed.standard.value (twoCoupons [0, 0, 0, 4] [0, 0, 0, 4]) = .ok t ∧
      t.store.content = .coupons kept ∧ ¬ kept.Nodup ∧ t.store.couponCount? ≠ some kept.dedup.length ∧
        ∀ u, ofImage t.seed.value (t.image .compact) ≠ .ok u) ∧
    ∃ t kept, ofImage Seed.standard.value ([2, 1, 7, 8, 3, 8, 1, 0] ++ [1, 0, 0, 0]) = .ok t ∧
      t.store.content = .coupons kept ∧ ∃ c ∈ kept, c.value = 0 := by
  constructor
  · have read : ∃ t, ofImage Seed.standard.value (twoCoupons [0, 0, 0, 4] [0, 0, 0, 4]) = .ok t ∧
        t.store.content = .coupons [.pack 0 1, .pack 0 1] ∧ t.store.couponCount? = some 2 := by
      rw [ofImage, Seed.check_value]
      exact ⟨_, rfl, rfl, rfl⟩
    obtain ⟨t, accepted, content, counted⟩ := read
    have twice : ¬ [Coupon.pack 0 1, Coupon.pack 0 1].Nodup := by decide
    refine ⟨t, _, accepted, content, twice, ?_, fun u again => ?_⟩
    · rw [counted]
      decide
    · exact twice (nodup_of_again (accepted_of_ofImage accepted content).1 again)
  · rw [ofImage, Seed.check_value]
    exact ⟨_, _, rfl, rfl, _, List.mem_singleton.mpr rfl, rfl⟩

end Sketch

end DistinctCount
