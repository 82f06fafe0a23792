import DistinctCount.Image.Loader
import DistinctCount.Proofs.Reading
import DistinctCount.Proofs.Tolerance
import DistinctCount.Proofs.Twins

namespace DistinctCount

open Reader (Reads)

namespace CouponList

theorem reads_read {coupons : List Coupon} (distinct : coupons.Nodup)
    (taken : Coupon.empty ∉ coupons) : Reads (read coupons) [] ⟨coupons⟩ := by
  have all : Reads (read coupons) [] (coupons.foldl insert empty) ∧
      (coupons.foldl insert empty).coupons ++ [] = coupons := by
    refine Reader.reads_foldlM (fun (list : CouponList) rest => list.coupons ++ rest = coupons)
      (fun list c index rest reached => ?_) rfl 0
    have absent : c ∉ list.coupons := by
      rw [← reached, List.nodup_append] at distinct
      exact fun member => distinct.2.2 c member c (by simp) rfl
    have added : list.insert c = ⟨list.coupons ++ [c]⟩ := by simp [insert, contains, absent]
    refine ⟨.unless ?_ (.unless ?_ (Reader.reads_pure _)), ?_⟩
    · rw [← reached] at taken
      simp only [decide_eq_false_iff_not]
      rintro rfl
      simp at taken
    · simp [contains, absent]
    · simp [added, ← reached]
  obtain ⟨reads, same⟩ := all
  rw [List.append_nil] at same
  rwa [show coupons.foldl insert empty = ⟨coupons⟩ from congrArg mk same] at reads

end CouponList

theorem CouponTable.ofEntries_toList {κ : Type} [DecidableEq κ] {K : Keying κ} {t : CouponTable}
    (keyed : t.Keyed K) : ofEntries t.lgSize t.entries.toList.toArray = t := by
  obtain ⟨lgSize, entries, count⟩ := t
  have counted : count = entries.toList.countP (· ≠ Coupon.empty) := by
    rw [List.countP_eq_length_filter]
    exact keyed.count_eq
  rw [counted, ofEntries]

namespace CouponSet

theorem reads_read {coupons : List Coupon} {lgSize : Nat} (distinct : coupons.Nodup)
    (taken : ∀ c ∈ coupons, c ≠ Coupon.empty) (room : coupons.length ≤ 2 ^ lgSize) :
    Reads (read lgSize coupons) [] ((empty lgSize).insertAll coupons) := by
  have none : (empty lgSize).coupons = [] := CouponTable.occupied_empty _
  have all : Reads (read lgSize coupons) [] (coupons.foldl insert (empty lgSize)) ∧
      ∃ done, done ++ [] = coupons ∧
        coupons.foldl insert (empty lgSize) = (empty lgSize).insertAll done := by
    refine Reader.reads_foldlM (fun (set : CouponSet) rest => ∃ done, done ++ rest = coupons ∧
      set = (empty lgSize).insertAll done) (fun set c index rest reached => ?_) ⟨[], rfl, rfl⟩ 0
    obtain ⟨done, rfl, rfl⟩ := reached
    obtain ⟨first, _, apart⟩ := List.nodup_append.mp distinct
    rw [List.length_append, List.length_cons] at room
    obtain ⟨keyed, held, size⟩ := insertAll_spec (s := empty lgSize)
      (CouponTable.keyed_empty _ _) (fun d member => taken d (List.mem_append_left _ member))
      (by rw [none, List.append_nil]; exact first) (Nat.le_of_add_right_le (k := rest.length + 1) room)
    rw [none, List.append_nil] at held
    have absent : c ∉ ((empty lgSize).insertAll done).coupons :=
      fun member => apart c (held.subset member) c (by simp) rfl
    have free : ((empty lgSize).insertAll done).count < ((empty lgSize).insertAll done).table.size := by
      rw [count_eq keyed, held.length_eq, CouponTable.size, size]
      exact Nat.lt_of_lt_of_le (by omega) room
    refine ⟨.unless ?_ (.unless ?_ (Reader.reads_pure _)), done ++ [c], by simp, ?_⟩
    · simpa using taken c (by simp)
    · exact Bool.eq_false_iff.mpr (fun held => absent ((contains_iff keyed free).mp held))
    · simp [insertAll]
  exact all.1

end CouponSet

namespace Exceptions

variable {p : Precision} {e : Exceptions}

def packed (binding : Nat × Nat) : Coupon := Coupon.pack binding.1 binding.2

/-- Distinct bindings are all read, into a table that grows as it would have grown before. -/
theorem reads_read {pairs : List (Nat × Nat)} (inside : ∀ pair ∈ pairs, pair.1 < p.size ∧ Storable pair.1 pair.2)
    (distinct : (pairs.map Prod.fst).Nodup) :
    ∃ e, Reads (read p (pairs.map packed)) [] e ∧ e.Sound ∧ e.precision = p ∧
      e.bindings.Perm pairs := by
  let Inv (e : Exceptions) (rest : List Coupon) : Prop :=
    e.Sound ∧ e.precision = p ∧ ∃ done left, left.map packed = rest ∧ done ++ left = pairs ∧
      e.bindings.Perm done
  have start : Inv (empty p) (pairs.map packed) :=
    ⟨sound_empty p, rfl, [], pairs, rfl, rfl, by rw [bindings_empty]⟩
  have all : Reads (read p (pairs.map packed)) []
        ((pairs.map packed).foldl (fun e entry => e.insert entry.slot entry.value) (empty p)) ∧
      Inv ((pairs.map packed).foldl (fun e entry => e.insert entry.slot entry.value) (empty p)) [] := by
    refine Reader.reads_foldlM Inv (fun e entry index rest reached => ?_) start 0
    obtain ⟨sound, same, done, left, shape, whole, held⟩ := reached
    obtain ⟨pair, others, rfl, rfl, rfl⟩ := List.map_eq_cons_iff.mp shape
    obtain ⟨below, storable⟩ := inside pair (by simp [← whole])
    have slot : (packed pair).slot = pair.1 := slot_pack below pair.2
    have value : (packed pair).value = pair.2 := Coupon.value_pack _ _ storable.2
    have free : e.get? pair.1 = none := by
      rw [get?_eq_none_iff sound.keyed sound.room, (held.map Prod.fst).mem_iff]
      rw [← whole, List.map_append, List.nodup_append] at distinct
      exact fun member => distinct.2.2 _ member pair.1 (by simp) rfl
    obtain ⟨sound', perm, same'⟩ := insert_spec sound (by rwa [same]) storable free
    simp only [slot, value]
    refine ⟨.unless ?_ (.unless ?_ (Reader.reads_pure _)), sound', same'.trans same, done ++ [pair],
      others, rfl, by simp [← whole], ?_⟩
    · simpa using below
    · simp [contains, free]
    · exact perm.trans ((held.cons pair).trans (List.perm_append_singleton pair done).symm)
  obtain ⟨reads, sound, same, done, left, shape, whole, held⟩ := all
  obtain rfl := List.map_eq_nil_iff.mp shape
  rw [List.append_nil] at whole
  exact ⟨_, reads, sound, same, whole ▸ held⟩

theorem count_ne_zero (keyed : e.table.Keyed (keying e.precision)) (used : e.bindings ≠ []) :
    e.count ≠ 0 := by
  rw [count_eq keyed]
  exact fun zero => used (List.length_eq_zero_iff.mp zero)

theorem reads_readCompact (serviceable : e.Serviceable) (used : e.bindings ≠ []) :
    ∃ f, Reads (readCompact e.precision e.count) (couponBytes (e.sorted.map packed)) (some f) ∧
      f.Sound ∧ f.precision = e.precision ∧ f.bindings.Perm e.bindings := by
  have perm : e.sorted.Perm e.bindings := List.mergeSort_perm _ _
  have inside : ∀ pair ∈ e.sorted, pair.1 < e.precision.size ∧ Storable pair.1 pair.2 :=
    fun pair member => ⟨e.slot_lt_of_mem (perm.subset member), serviceable.storable pair (perm.subset member)⟩
  obtain ⟨f, reads, sound', same, held⟩ := reads_read inside
    ((perm.map Prod.fst).nodup_iff.mpr (nodup_slots serviceable.keyed))
  refine ⟨f, ?_, sound', same, held.trans perm⟩
  have counted : (e.sorted.map packed).length = e.count := by
    rw [List.length_map, perm.length_eq, count_eq serviceable.keyed]
  unfold readCompact
  rw [if_neg (count_ne_zero serviceable.keyed used)]
  refine .unless (by simpa using count_le serviceable.keyed) ?_
  exact (Reader.reads_coupons counted).last (reads.last (Reader.reads_pure _))

theorem reads_readUpdatable (serviceable : e.Serviceable) (used : e.bindings ≠ []) :
    Reads (readUpdatable e.precision e.table.lgSize e.count) (couponBytes e.table.entries.toList)
      (some e) := by
  have counted : e.table.entries.toList.length = 2 ^ e.table.lgSize := by
    rw [Array.length_toList, serviceable.keyed.size_entries, CouponTable.size]
  have adopted : ofTable? e.precision (.ofEntries e.table.lgSize e.table.entries.toList.toArray) =
      some e := by
    rw [CouponTable.ofEntries_toList serviceable.keyed]
    refine (if_neg (Nat.ne_of_lt serviceable.room)).trans (if_pos (List.all_eq_true.mpr ?_))
    intro binding member
    simpa using (get?_eq_some_iff serviceable.keyed serviceable.room).mpr member
  unfold readUpdatable
  refine .unless (by simpa using serviceable.size_le) ?_
  refine (Reader.reads_coupons counted).last ?_
  rw [if_neg (fun free => count_ne_zero serviceable.keyed used free.1)]
  simp only [adopted]
  exact .unless (by simp) (Reader.reads_pure _)

end Exceptions

namespace Registers

variable {p : Precision} {base slot value : Nat} {cells : Nibbles} {exceptions : Option Exceptions}

theorem Agrees.mem_bindings_iff (agrees : Agrees p base cells exceptions) :
    (slot, value) ∈ Exceptions.bindingsOf exceptions ↔ lookup exceptions slot = some value := by
  cases exceptions with
  | none => simp [Exceptions.bindingsOf, lookup]
  | some e =>
    obtain ⟨sound, _⟩ := agrees.sound e rfl
    exact (Exceptions.get?_eq_some_iff sound.keyed sound.room).symm

/-- Tokens and exceptions that belong to each other, one to one. -/
structure Covered (p : Precision) (base : Nat) (cells : Nibbles) (exceptions : Option Exceptions) :
    Prop where
  token_iff : ∀ slot < p.size,
    cells.get slot = token ↔ ∃ value, (slot, value) ∈ Exceptions.bindingsOf exceptions
  distinct : ((Exceptions.bindingsOf exceptions).map Prod.fst).Nodup
  range : ∀ slot value, (slot, value) ∈ Exceptions.bindingsOf exceptions →
    slot < p.size ∧ base + token ≤ value ∧ value ≤ Coupon.maxValue
  found : ∀ slot value,
    lookup exceptions slot = some value ↔ (slot, value) ∈ Exceptions.bindingsOf exceptions
  count : (four cells exceptions).exceptionCount = (Exceptions.bindingsOf exceptions).length

/-- As many registers have a token as there are exceptions. -/
theorem Covered.countP_token (covered : Covered p base cells exceptions) :
    (List.range p.size).countP (cells.get · = token) = (four cells exceptions).exceptionCount := by
  have slots : ((List.range p.size).filter (cells.get · = token)).Perm
      ((Exceptions.bindingsOf exceptions).map Prod.fst) := by
    rw [List.perm_ext_iff_of_nodup (List.nodup_range.filter _) covered.distinct]
    intro slot
    simp only [List.mem_filter, List.mem_range, decide_eq_true_eq, List.mem_map, Prod.exists,
      exists_and_right, exists_eq_right]
    constructor
    · rintro ⟨inside, marked⟩
      exact (covered.token_iff slot inside).mp marked
    · rintro ⟨value, member⟩
      have inside := (covered.range slot value member).1
      exact ⟨inside, (covered.token_iff slot inside).mpr ⟨value, member⟩⟩
  rw [List.countP_eq_length_filter, slots.length_eq, List.length_map, covered.count]

theorem Agrees.covered (agrees : Agrees p base cells exceptions) : Covered p base cells exceptions := by
  have member (slot value : Nat) :
      (slot, value) ∈ Exceptions.bindingsOf exceptions ↔ lookup exceptions slot = some value :=
    agrees.mem_bindings_iff
  refine ⟨fun slot inside => ?_, ?_, fun slot value present => ?_, fun slot value => (member slot value).symm,
    ?_⟩
  · rw [agrees.token_iff slot inside, Option.isSome_iff_exists]
    exact exists_congr (fun value => (member slot value).symm)
  · cases exceptions with
    | none => exact List.nodup_nil
    | some e => exact Exceptions.nodup_slots (agrees.sound e rfl).1.keyed
  · have held := (member slot value).mp present
    exact ⟨agrees.slot_lt held, agrees.range slot value held⟩
  · cases exceptions with
    | none => rfl
    | some e => exact Exceptions.count_eq (agrees.sound e rfl).1.keyed

theorem reads_checkAgainst (covered : Covered p base cells exceptions) :
    Reads (Exceptions.checkAgainst exceptions p cells base (four cells exceptions).exceptionCount) []
      () := by
  unfold Exceptions.checkAgainst
  refine .unless (by simp [covered.countP_token]) ?_
  dsimp only
  rw [List.find?_eq_none.mpr (fun binding member => ?marked),
    List.find?_eq_none.mpr (fun binding member => ?ranged)]
  case marked =>
    have inside := (covered.range _ _ member).1
    simpa using (covered.token_iff binding.1 inside).mpr ⟨binding.2, member⟩
  case ranged => simpa using (covered.range _ _ member).2
  exact Reader.reads_pure ()

theorem Covered.of_perm {exceptions' : Option Exceptions} (covered : Covered p base cells exceptions)
    (perm : (Exceptions.bindingsOf exceptions').Perm (Exceptions.bindingsOf exceptions))
    (alike : ∀ slot, lookup exceptions' slot = lookup exceptions slot)
    (count : (four cells exceptions').exceptionCount = (four cells exceptions).exceptionCount) :
    Covered p base cells exceptions' where
  token_iff slot inside := by
    rw [covered.token_iff slot inside]
    exact exists_congr (fun value => perm.mem_iff.symm)
  distinct := (perm.map Prod.fst).nodup_iff.mpr covered.distinct
  range slot value member := covered.range slot value (perm.subset member)
  found slot value := by rw [alike, covered.found, perm.mem_iff]
  count := by rw [count, covered.count, perm.length_eq]

theorem Agrees.of_lookup {exceptions' : Option Exceptions} (agrees : Agrees p base cells exceptions)
    (sound : ∀ e ∈ exceptions', e.Sound ∧ e.precision = p ∧ e.bindings ≠ [])
    (alike : ∀ slot, lookup exceptions' slot = lookup exceptions slot) :
    Agrees p base cells exceptions' := by
  refine ⟨agrees.size, sound, fun slot inside => ?_, fun slot value held => ?_⟩
  · rw [alike, agrees.token_iff slot inside]
  · exact agrees.range slot value ((alike slot).symm.trans held)

/-- Registers of which an image can be read again, wherever their table of exceptions came from. -/
def Readable (p : Precision) (base : Nat) : Registers → Prop
  | .four cells exceptions =>
    cells.bytes.size = Nibbles.byteCount p.size ∧ Covered p base cells exceptions ∧
      ∀ e ∈ exceptions, e.Serviceable ∧ e.precision = p ∧ e.bindings ≠ []
  | .six cells => cells.bytes.size = Sextets.byteCount p.size
  | .eight cells => cells.bytes.size = p.size

theorem Sound.readable {r : Registers} (sound : r.Sound p base) : r.Readable p base := by
  have packed := sound.packed
  cases r with
  | four cells exceptions =>
    have agrees : Agrees p base cells exceptions := packed
    refine ⟨agrees.size, agrees.covered, fun e member => ?_⟩
    obtain ⟨sound, precision, used⟩ := agrees.sound e member
    exact ⟨sound.serviceable, precision, used⟩
  | six cells => exact packed.1
  | eight cells => exact packed.1

theorem Readable.exceptionCount_le {r : Registers} (readable : r.Readable p base) :
    r.exceptionCount ≤ p.size ∧ (r.width ≠ .four → r.exceptionCount = 0) := by
  cases r with
  | four cells exceptions =>
    refine ⟨?_, fun other => absurd rfl other⟩
    cases exceptions with
    | none => exact Nat.zero_le _
    | some e =>
      obtain ⟨_, _, kept⟩ := readable
      obtain ⟨serviceable, rfl, _⟩ := kept e rfl
      exact Exceptions.count_le serviceable.keyed
  | six | eight => exact ⟨Nat.zero_le _, fun _ => rfl⟩

end Registers

namespace RegisterArray

variable {a : RegisterArray Float}

private theorem reads_exceptions {p : Precision} {cells : Nibbles} {exceptions : Option Exceptions}
    (tally : Tally Float) (historic : Float) (upkeep : Upkeep Float)
    (readable : (Registers.four cells exceptions).Readable p tally.base) (layout : Layout) :
    let a : RegisterArray Float := ⟨p, .four cells exceptions, tally, historic, upkeep⟩
    ∃ exceptions',
      Reads (match layout with
        | .compact => Exceptions.readCompact p a.registers.exceptionCount
        | .updatable => Exceptions.readUpdatable p a.lgTableSize a.registers.exceptionCount)
        (couponBytes (a.entries layout)) exceptions' ∧
      (∀ e ∈ exceptions', layout = .compact → e.Sound ∧ e.precision = p ∧ e.bindings ≠ []) ∧
      (Exceptions.bindingsOf exceptions').Perm (Exceptions.bindingsOf exceptions) ∧
      (∀ slot, Registers.lookup exceptions' slot = Registers.lookup exceptions slot) ∧
      (Registers.four cells exceptions').exceptionCount = (Registers.four cells exceptions).exceptionCount ∧
      (layout = .updatable → exceptions' = exceptions) := by
  intro a
  obtain ⟨_, _, kept⟩ := readable
  cases exceptions with
  | none =>
    refine ⟨none, ?_, (fun e member => by cases member), .refl _, fun _ => rfl, rfl, fun _ => rfl⟩
    cases layout with
    | compact => exact Reader.reads_pure none
    | updatable =>
      simp only
      unfold Exceptions.readUpdatable
      refine .unless ?_ ?_
      · exact decide_eq_false (Nat.not_lt_of_le (Exceptions.sound_empty p).lgSize_le)
      · refine (Reader.reads_coupons (List.length_replicate ..)).last ?_
        rw [if_pos ⟨rfl, by simp [a]⟩]
        exact Reader.reads_pure none
  | some e =>
    obtain ⟨serviceable, rfl, used⟩ := kept e rfl
    cases layout with
    | compact =>
      obtain ⟨f, reads, sound, same, perm⟩ := Exceptions.reads_readCompact serviceable used
      refine ⟨some f, reads, fun g member _ => ?_, perm,
        Exceptions.get?_eq_of_perm sound.serviceable serviceable perm, ?_, (fun other => by cases other)⟩
      · obtain rfl := Option.some.inj member
        exact ⟨sound, same, fun none => used (List.nil_perm.mp (none ▸ perm))⟩
      · exact (Exceptions.count_eq sound.keyed).trans
          (perm.length_eq.trans (Exceptions.count_eq serviceable.keyed).symm)
    | updatable =>
      exact ⟨some e, Exceptions.reads_readUpdatable serviceable used, (fun _ _ other => by cases other),
        .refl _, fun _ => rfl, rfl, fun _ => rfl⟩

/-- Registers are read with the values that they held, and from a whole table as they were. -/
private theorem reads_registers (readable : a.registers.Readable a.precision a.tally.base) (flags : Flags) :
    ∃ registers,
      Reads (Registers.read ⟨a.precision, a.lgTableSize, flags, a.tally.base, .registers, a.width⟩
          a.registers.exceptionCount)
        (a.registers.bytes.toList ++ couponBytes (a.entries flags.layout)) registers ∧
      (a.registers.Sound a.precision a.tally.base → registers.Sound a.precision a.tally.base) ∧
      registers.width = a.width ∧ (∀ slot, registers.get a.tally.base slot = a.get slot) ∧
      (flags.layout = .updatable → registers = a.registers) := by
  obtain ⟨p, registers, tally, historic, upkeep⟩ := a
  cases registers with
  | four cells exceptions =>
    obtain ⟨exceptions', reads, kept, perm, alike, count, same⟩ :=
      reads_exceptions tally historic upkeep readable flags.layout
    obtain ⟨size, covered, _⟩ := readable
    have read (slot : Nat) : (Registers.four cells exceptions').get tally.base slot =
        (Registers.four cells exceptions).get tally.base slot := by
      rw [Registers.get_four, Registers.get_four, alike]
    refine ⟨.four cells exceptions', ?_, fun sound => ⟨?_, fun slot inside => ?_⟩, rfl, read,
      fun updatable => ?_⟩
    · have sized : cells.bytes.toList.length = Registers.byteCount .four p.size := size
      unfold Registers.read
      refine (Reader.reads_bytes sized).bind ?_
      have checked := Registers.reads_checkAgainst (covered.of_perm perm alike count)
      rw [count] at checked
      cases layout : flags.layout <;> simp only [layout] at reads ⊢ <;>
        exact reads.last (checked.last (Reader.reads_pure _))
    · have agrees : Registers.Agrees p tally.base cells exceptions := sound.packed
      cases layout : flags.layout with
      | compact => exact agrees.of_lookup (fun e member => kept e member layout) alike
      | updatable =>
        rw [same layout]
        exact agrees
    · rw [read]
      exact sound.bounded slot inside
    · rw [same updatable]
  | six cells =>
    have sized : cells.bytes.toList.length = Registers.byteCount .six p.size := readable
    refine ⟨.six cells, ?_, id, rfl, fun _ => rfl, fun _ => rfl⟩
    unfold Registers.read
    exact (Reader.reads_bytes sized).bind (Reader.reads_pure _)
  | eight cells =>
    have sized : cells.bytes.toList.length = Registers.byteCount .eight p.size := readable
    refine ⟨.eight cells, ?_, id, rfl, fun _ => rfl, fun _ => rfl⟩
    unfold Registers.read
    exact (Reader.reads_bytes sized).bind (Reader.reads_pure _)

/-- A tally that is that of a scan is accepted, and any that is pending. -/
private theorem reads_accept (fits : Tally.Fits a.values) {pending : Bool}
    (settled : pending = false → a.tally = a.scan) :
    Reads (accept a pending) [] (if pending then { a with upkeep := .pending (some a.scan) } else a) := by
  have small : a.values.find? (Coupon.maxValue < ·) = none := by
    refine List.find?_eq_none.mpr (fun value member => ?_)
    simpa using fits.bounded value member
  unfold accept
  simp only [small]
  cases pending with
  | true => exact Reader.reads_pure _
  | false =>
    have base : a.tally.sameBase a.scan = true := by
      rw [settled rfl]
      simp [Tally.sameBase]
    have sum : a.tally.sameSum a.scan = true := by
      rw [settled rfl]
      exact Binary64.sameSum_scan fits _
    refine .unless (by simp [base]) (.unless (by simp [sum]) ?_)
    exact Reader.reads_pure a

theorem lgTableSize_le {α : Type} {a : RegisterArray α}
    (readable : a.registers.Readable a.precision a.tally.base) :
    a.lgTableSize ≤ Exceptions.lgMaxSize a.precision := by
  obtain ⟨p, registers, tally, historic, upkeep⟩ := a
  cases registers with
  | four cells exceptions =>
    cases exceptions with
    | none => exact (Exceptions.sound_empty p).lgSize_le
    | some e =>
      obtain ⟨_, _, kept⟩ := readable
      obtain ⟨serviceable, rfl, _⟩ := kept e rfl
      exact serviceable.size_le
  | six | eight => exact Nat.zero_le _

/-- A readable array with bounded values is read, and its tally taken over if it is pending or that of a
scan. -/
theorem reads_of_readable (readable : a.registers.Readable a.precision a.tally.base)
    (fits : Tally.Fits a.values) (base : a.tally.base ≤ Coupon.maxValue)
    (zero : a.width ≠ .four → a.tally.base = 0) (atBase : a.tally.atBase ≤ a.precision.size)
    (exact : a.isPending = false → a.tally = a.scan) (flags : Flags)
    (pending : flags.pending = a.isPending) :
    ∃ registers,
      let b : RegisterArray Float := ⟨a.precision, registers, a.tally, a.historic, .settled⟩
      Reads (read ⟨a.precision, a.lgTableSize, flags, a.tally.base, .registers, a.width⟩)
        (a.body flags.layout) (if a.isPending then { b with upkeep := .pending (some b.scan) } else b) ∧
      (a.registers.Sound a.precision a.tally.base → registers.Sound a.precision a.tally.base) ∧
      registers.width = a.width ∧ (∀ slot, registers.get a.tally.base slot = a.get slot) ∧
      (flags.layout = .updatable → registers = a.registers) := by
  obtain ⟨registers, reads, sound, width, get, same⟩ := reads_registers readable flags
  refine ⟨registers, ?_, sound, width, get, same⟩
  let b : RegisterArray Float := ⟨a.precision, registers, a.tally, a.historic, .settled⟩
  have values : b.values = a.values := values_congr rfl (fun slot _ => get slot)
  have scan : b.scan = a.scan := scan_congr width values
  have size : a.precision.size ≤ 2 ^ 21 := a.precision.size_le
  obtain ⟨few, none⟩ := readable.exceptionCount_le
  unfold read readParts
  simp only [body, List.append_assoc, pending, bind_assoc, pure_bind]
  refine (Reader.reads_float _).bind ((Reader.reads_float _).bind ((Reader.reads_float _).bind ?_))
  refine (Reader.reads_number (by omega)).bind ((Reader.reads_number (by omega)).bind ?_)
  refine .unless (decide_eq_false (Nat.not_lt_of_le base)) ?_
  refine .unless (decide_eq_false (fun other => other.2 (zero other.1))) ?_
  refine .unless (decide_eq_false (Nat.not_lt_of_le atBase)) ?_
  refine .unless (decide_eq_false (fun other => other.2 (none other.1))) ?_
  have accepted : Reads (accept b a.isPending) [] _ :=
    reads_accept (values.symm ▸ fits) (fun settled => (exact settled).trans scan.symm)
  exact reads.last accepted

/-- A scan that is kept is one of the registers, so there is no other one to be kept. -/
private theorem primed_eq (sound : a.Sound) (pending : a.isPending = true) :
    a.primed = { a with upkeep := .pending (some a.scan) } := by
  obtain ⟨p, registers, tally, historic, upkeep⟩ := a
  cases upkeep with
  | settled => cases pending
  | pending scanned =>
    cases scanned with
    | none => rfl
    | some kept =>
      exact congrArg (fun scanned => RegisterArray.mk p registers tally historic (.pending (some scanned)))
        (sound.scanned kept rfl)

/-- What is put together from registers that read alike is as exact as the original. A scan that the
original puts off was made in passing. -/
private theorem restored_spec (exact : a.Exact) {registers : Registers}
    (sound : registers.Sound a.precision a.tally.base) (width : registers.width = a.width)
    (get : ∀ slot, registers.get a.tally.base slot = a.get slot) :
    let b : RegisterArray Float := ⟨a.precision, registers, a.tally, a.historic, .settled⟩
    let restored := if a.isPending then { b with upkeep := .pending (some b.scan) } else b
    restored.Exact ∧ restored.Twin a ∧ (registers = a.registers → restored = a.primed) := by
  intro b restored
  have values : b.values = a.values := values_congr rfl (fun slot _ => get slot)
  have scan : b.scan = a.scan := scan_congr width values
  cases waits : a.isPending with
  | true =>
    have shape : restored = { b with upkeep := .pending (some b.scan) } := if_pos waits
    have twin : ({ b with upkeep := .pending (some b.scan) } : RegisterArray Float).Twin a :=
      ⟨rfl, width, values, rfl, rfl, waits.symm⟩
    rw [shape]
    refine ⟨twin.exact exact sound (fun kept scanned => ?_), twin, fun same => ?_⟩
    · cases scanned
      rfl
    · rw [primed_eq exact.toSound waits, scan]
      simp only [b, same]
  | false =>
    have shape : restored = b := if_neg (waits ▸ Bool.false_ne_true)
    have twin : b.Twin a := ⟨rfl, width, values, rfl, rfl, waits.symm⟩
    rw [shape]
    refine ⟨twin.exact exact sound (fun kept scanned => by cases scanned), twin, fun same => ?_⟩
    have upkeep : a.upkeep = .settled := settled_iff.mpr waits
    obtain ⟨p, registers', tally', historic, upkeep'⟩ := a
    cases upkeep
    cases same
    rfl

/-- An array is read with all that a reader can ask of it, and from whole tables as it was. -/
theorem reads_read (exact : a.Exact) (flags : Flags) (pending : flags.pending = a.isPending) :
    ∃ b, Reads (read ⟨a.precision, a.lgTableSize, flags, a.tally.base, .registers, a.width⟩)
        (a.body flags.layout) b ∧
      b.Exact ∧ b.Twin a ∧ (flags.layout = .updatable → b = a.primed) := by
  obtain ⟨registers, reads, sound, width, get, same⟩ := reads_of_readable exact.registers.readable
    (fits_values exact.toEncoded) exact.base_le exact.base_eq_zero exact.atBase_le
    (fun settled => exact.exact (settled_iff.mpr settled)) flags pending
  obtain ⟨again, twin, whole⟩ := restored_spec exact (sound exact.registers) width get
  exact ⟨_, reads, again, twin, fun updatable => whole (same updatable)⟩

end RegisterArray

end DistinctCount
