import DistinctCount.Proofs.AcceptedCoupons

namespace DistinctCount

open Reader (Gives)

theorem forall_not_of_find? {pairs : List (Nat × Nat)} {sought : Nat × Nat → Bool}
    (none : ∀ slot value, pairs.find? sought = some (slot, value) → False) :
    ∀ pair ∈ pairs, sought pair = false := by
  intro pair member
  have missed : pairs.find? sought = .none :=
    Option.eq_none_iff_forall_ne_some.mpr (fun found => none found.1 found.2)
  exact Bool.eq_false_iff.mpr (List.find?_eq_none.mp missed pair member)

namespace Exceptions

section

variable (e : Exceptions) (slot value : Nat)

private theorem length_bindings_place_le :
    (e.place slot value).bindings.length ≤
      e.bindings.length + [Coupon.pack slot value].countP (· ≠ Coupon.empty) := by
  unfold place
  split
  · rename_i index _
    simpa only [bindings, List.length_map] using
      CouponTable.length_occupied_fill_le e.table index (Coupon.pack slot value)
  · exact Nat.le_add_right _ _

private theorem length_bindings_placeAll_le (pairs : List (Nat × Nat)) :
    (pairs.foldl (fun e (slot, value) => e.place slot value) e).bindings.length ≤
      e.bindings.length + pairs.length := by
  induction pairs generalizing e with
  | nil => exact Nat.le_refl _
  | cons pair rest ih =>
    have placed := length_bindings_place_le e pair.1 pair.2
    have one : [Coupon.pack pair.1 pair.2].countP (· ≠ Coupon.empty) ≤ 1 := List.countP_le_length
    refine Nat.le_trans (ih (e.place pair.1 pair.2)) ?_
    rw [List.length_cons]
    omega

private theorem length_bindings_grown_le : e.grown.bindings.length ≤ e.bindings.length := by
  have none : (⟨e.precision, .empty (e.table.lgSize + 1)⟩ : Exceptions).bindings = [] := by
    simp [bindings, CouponTable.occupied_empty]
  have all := length_bindings_placeAll_le ⟨e.precision, .empty (e.table.lgSize + 1)⟩ e.bindings
  rwa [none, List.length_nil, Nat.zero_add] at all

/-- An entry that looks free is no binding, though it is counted. -/
theorem length_bindings_insert_le :
    (e.insert slot value).bindings.length ≤
      e.bindings.length + [Coupon.pack slot value].countP (· ≠ Coupon.empty) := by
  have placed := length_bindings_place_le e slot value
  unfold insert
  dsimp only
  split_ifs
  · exact Nat.le_add_right _ _
  · exact Nat.le_trans (length_bindings_grown_le _) placed
  · exact placed

end

variable {p : Precision} {bytes rest : List UInt8} {exceptions : Option Exceptions} {cells : Nibbles}
  {base count lgSize : Nat}

/-- As many registers have a token as the image has exceptions, and each exception belongs to one of them. -/
theorem tokens_of_checkAgainst (given : Gives (checkAgainst exceptions p cells base count) bytes () rest) :
    (List.range p.size).countP (cells.get · = Registers.token) = count ∧
      ∀ slot value, (slot, value) ∈ bindingsOf exceptions → cells.get slot = Registers.token ∧
        base + Registers.token ≤ value ∧ value ≤ Coupon.maxValue := by
  unfold checkAgainst at given
  obtain ⟨counted, given⟩ := given.unless
  dsimp only at given
  split at given
  · cases given
  · rename_i marked
    split at given
    · cases given
    · rename_i ranged
      refine ⟨by simpa using counted, fun slot value member => ⟨?_, ?_⟩⟩
      · simpa using forall_not_of_find? marked (slot, value) member
      · simpa using forall_not_of_find? ranged (slot, value) member

/-- What is known of a table that was adopted. It may repeat a register. -/
structure Adopted (p : Precision) (e : Exceptions) : Prop where
  precision : e.precision = p
  size_le : e.table.lgSize ≤ lgMaxSize e.precision
  sized : e.table.entries.size = e.table.size
  room : e.count < e.table.size
  counted : e.count = e.bindings.length
  used : e.bindings ≠ []
  found : ∀ slot value, (slot, value) ∈ e.bindings → e.get? slot = some value

theorem adopted_of_readUpdatable (given : Gives (readUpdatable p lgSize count) bytes exceptions rest) :
    exceptions = none ∧ count = 0 ∨
      ∃ e : Exceptions, exceptions = some e ∧ e.count = count ∧ e.Adopted p := by
  unfold readUpdatable at given
  obtain ⟨small, given⟩ := given.unless
  obtain ⟨entries, mid, taken, given⟩ := given.bind
  obtain ⟨listed, _⟩ := taken.coupons
  have length : entries.length = 2 ^ lgSize := by simp [listed]
  split_ifs at given with free
  · obtain ⟨rfl, _⟩ := given.pure
    exact .inl ⟨rfl, free.1⟩
  · split at given
    · rename_i e adopted
      obtain ⟨same, given⟩ := given.unless
      obtain ⟨rfl, _⟩ := given.pure
      have same : e.count = count := by simpa using same
      unfold ofTable? at adopted
      dsimp only at adopted
      split_ifs at adopted with full found
      cases adopted
      have counted : (⟨p, .ofEntries lgSize entries.toArray⟩ : Exceptions).count =
          (⟨p, .ofEntries lgSize entries.toArray⟩ : Exceptions).bindings.length := by
        rw [bindings, List.length_map, CouponTable.occupied, ← List.countP_eq_length_filter]
        rfl
      refine .inr ⟨_, rfl, same, rfl, Nat.le_of_not_lt (of_decide_eq_false small), length, ?_, counted, ?_, ?_⟩
      · exact Nat.lt_of_le_of_ne (Nat.le_trans List.countP_le_length (Nat.le_of_eq length)) full
      · intro none
        rw [none, List.length_nil] at counted
        refine free ⟨same.symm.trans counted, List.all_eq_true.mpr (fun entry member => ?_)⟩
        have unused : entries.countP (· ≠ Coupon.empty) = 0 := counted
        simpa using List.countP_eq_zero.mp unused entry member
      · simpa using found
    · cases given

/-- A table that was adopted can be searched and raised, unless it repeats a register. -/
theorem Adopted.serviceable {e : Exceptions} (adopted : e.Adopted p)
    (distinct : (e.bindings.map Prod.fst).Nodup)
    (range : ∀ slot value, (slot, value) ∈ e.bindings → 0 < value ∧ value ≤ Coupon.maxValue) :
    e.Serviceable := by
  refine ⟨CouponTable.keyed_of_found adopted.sized ?_ (fun entry member => ?_) ?_, adopted.room,
    fun binding member => ?_, adopted.size_le⟩
  · rw [← count, adopted.counted, bindings, List.length_map]
  · have held := adopted.found _ _ (List.mem_map.mpr ⟨entry, member, rfl⟩)
    have search : e.search (entry.register e.precision.size) =
        e.table.find (keying e.precision) ((keying e.precision).ident entry) := rfl
    rw [get?, search] at held
    split at held
    · exact ⟨_, ‹_›⟩
    · cases held
  · rwa [bindings, List.map_map] at distinct
  · obtain ⟨positive, bound⟩ := range _ _ member
    exact storable_of_pos positive bound

theorem sound_of_read {entries : List Coupon} {e : Exceptions} (taken : ∀ entry ∈ entries, entry ≠ Coupon.empty)
    (given : Gives (read p entries) bytes e rest) :
    e.Sound ∧ e.precision = p ∧
      e.bindings.Perm (entries.map fun entry => (entry.register p.size, entry.value)) := by
  let pair (entry : Coupon) : Nat × Nat := (entry.register p.size, entry.value)
  let Inv (e : Exceptions) (left : List Coupon) : Prop :=
    e.Sound ∧ e.precision = p ∧ ∃ done, done ++ left = entries ∧ e.bindings.Perm (done.map pair)
  have start : Inv (empty p) entries := ⟨sound_empty p, rfl, [], rfl, by rw [bindings_empty]; rfl⟩
  have kept := given.foldlM Inv (fun e entry index left bytes next rest reached step => ?_) start
  · obtain ⟨⟨sound, same, done, whole, held⟩, _⟩ := kept
    rw [List.append_nil] at whole
    exact ⟨sound, same, whole ▸ held⟩
  · obtain ⟨sound, same, done, whole, held⟩ := reached
    obtain ⟨below, step⟩ := step.unless
    obtain ⟨fresh, step⟩ := step.unless
    obtain ⟨rfl, rfl⟩ := step.pure
    have inside : entry.slot < p.size := by simpa using below
    have storable : Storable entry.slot entry.value := by
      refine ⟨?_, entry.value_le_maxValue⟩
      rw [Coupon.pack_slot_value]
      exact taken entry (whole ▸ List.mem_append_right done List.mem_cons_self)
    have free : e.get? entry.slot = none := by simpa [contains] using fresh
    obtain ⟨sound', perm, same'⟩ := insert_spec sound (same ▸ inside) storable free
    have register : pair entry = (entry.slot, entry.value) := by
      simp only [pair, Coupon.register, Nat.mod_eq_of_lt inside]
    refine ⟨⟨sound', same'.trans same, done ++ [entry], by simpa using whole, ?_⟩, rfl⟩
    rw [List.map_append, List.map_singleton, register]
    exact perm.trans ((held.cons _).trans (List.perm_append_singleton _ _).symm)

theorem length_bindings_of_read {entries : List Coupon} {e : Exceptions}
    (given : Gives (read p entries) bytes e rest) :
    e.bindings.length ≤ entries.countP (· ≠ Coupon.empty) := by
  let Inv (e : Exceptions) (left : List Coupon) : Prop :=
    e.bindings.length + left.countP (· ≠ Coupon.empty) ≤ entries.countP (· ≠ Coupon.empty)
  have start : Inv (empty p) entries := by
    simp only [Inv, bindings_empty, List.length_nil, Nat.zero_add, Nat.le_refl]
  have kept := given.foldlM Inv (fun e entry index left bytes next rest reached step => ?_) start
  · exact Nat.le_trans (Nat.le_add_right _ _) kept.1
  · obtain ⟨_, step⟩ := step.unless
    obtain ⟨_, step⟩ := step.unless
    obtain ⟨rfl, rfl⟩ := step.pure
    have added := length_bindings_insert_le e entry.slot entry.value
    rw [Coupon.pack_slot_value] at added
    refine ⟨?_, rfl⟩
    have parts : (entry :: left).countP (· ≠ Coupon.empty) =
        [entry].countP (· ≠ Coupon.empty) + left.countP (· ≠ Coupon.empty) := by
      rw [← List.countP_append, List.singleton_append]
    simp only [Inv] at reached ⊢
    omega

theorem taken_of_length_bindings {entries : List Coupon} {e : Exceptions}
    (given : Gives (read p entries) bytes e rest) (length : e.bindings.length = entries.length) :
    ∀ entry ∈ entries, entry ≠ Coupon.empty := by
  intro entry member
  have bound := length_bindings_of_read given
  rw [length] at bound
  have all := List.countP_eq_length.mp (Nat.le_antisymm List.countP_le_length bound)
  exact of_decide_eq_true (all entry member)

theorem exists_read_of_readCompact (given : Gives (readCompact p count) bytes exceptions rest) :
    exceptions = none ∧ count = 0 ∨
      ∃ e rest, exceptions = some e ∧ count ≠ 0 ∧
        Gives (read p ((List.range count).map fun i => Reader.couponAt bytes.toArray (4 * i)))
          (bytes.drop (4 * count)) e rest := by
  unfold readCompact at given
  split_ifs at given with free
  · obtain ⟨rfl, _⟩ := given.pure
    exact .inl ⟨rfl, free⟩
  · obtain ⟨_, given⟩ := given.unless
    obtain ⟨entries, mid, taken, given⟩ := given.bind
    obtain ⟨rfl, rfl⟩ := taken.coupons
    obtain ⟨e, last, read, given⟩ := given.bind
    obtain ⟨rfl, _⟩ := given.pure
    exact .inr ⟨e, last, rfl, free, read⟩

end Exceptions

namespace Registers

variable {bytes rest : List UInt8} {preamble : Preamble} {p : Precision} {cells : Nibbles}
  {exceptions : Option Exceptions} {base slot value count : Nat}

theorem size_of_read {r : Registers} (given : Gives (read preamble count) bytes r rest) :
    r.bytes.size = byteCount preamble.width preamble.precision.size ∧ r.width = preamble.width := by
  unfold read at given
  obtain ⟨front, mid, taken, given⟩ := given.bind
  obtain ⟨enough, rfl, rfl⟩ := taken.taken
  have size : (bytes.take (byteCount preamble.width preamble.precision.size)).toArray.size =
      byteCount preamble.width preamble.precision.size := by
    simpa using enough
  cases width : preamble.width with
  | four =>
    simp only [width] at given size ⊢
    cases layout : preamble.flags.layout <;>
    · simp only [layout] at given
      obtain ⟨read, mid, _, given⟩ := given.bind
      obtain ⟨_, last, _, given⟩ := given.bind
      obtain ⟨rfl, _⟩ := given.pure
      exact ⟨size, rfl⟩
  | six | eight =>
    simp only [width] at given size ⊢
    obtain ⟨rfl, _⟩ := given.pure
    exact ⟨size, rfl⟩

theorem exceptions_of_read (given : Gives (read preamble count) bytes (.four cells exceptions) rest) :
    ∃ mid,
      Gives (match preamble.flags.layout with
        | .compact => Exceptions.readCompact preamble.precision count
        | .updatable => Exceptions.readUpdatable preamble.precision preamble.lgSize count)
        (bytes.drop (Nibbles.byteCount preamble.precision.size)) exceptions mid ∧
      Gives (Exceptions.checkAgainst exceptions preamble.precision cells preamble.count count) mid () rest := by
  unfold read at given
  obtain ⟨front, mid, taken, given⟩ := given.bind
  obtain ⟨_, rfl, rfl⟩ := taken.taken
  cases width : preamble.width with
  | four =>
    simp only [width] at given
    cases layout : preamble.flags.layout with
    | compact =>
      simp only [layout] at given ⊢
      obtain ⟨read, mid, taken, given⟩ := given.bind
      obtain ⟨_, last, checked, given⟩ := given.bind
      obtain ⟨same, rfl⟩ := given.pure
      cases same
      exact ⟨mid, taken, checked⟩
    | updatable =>
      simp only [layout] at given ⊢
      obtain ⟨read, mid, taken, given⟩ := given.bind
      obtain ⟨_, last, checked, given⟩ := given.bind
      obtain ⟨same, rfl⟩ := given.pure
      cases same
      exact ⟨mid, taken, checked⟩
  | six =>
    simp only [width] at given
    cases given.pure.1
  | eight =>
    simp only [width] at given
    cases given.pure.1

theorem mem_bindings_of_lookup (held : lookup exceptions slot = some value) :
    (slot, value) ∈ Exceptions.bindingsOf exceptions := by
  cases exceptions with
  | none => cases held
  | some e =>
    rw [lookup, Option.bind_some, Exceptions.get?] at held
    split at held
    · rename_i index found
      cases held
      obtain ⟨taken, same⟩ := CouponTable.entry_of_find_found (K := Exceptions.keying e.precision) found
      exact List.mem_map.mpr ⟨_, CouponTable.mem_occupied.mpr ⟨taken, index, rfl⟩, Prod.ext same rfl⟩
    · cases held

/-- Exceptions of different registers that all have a token leave no token over if there are as many of
them. -/
theorem covered_of_count (precision : ∀ e ∈ exceptions, e.precision = p)
    (distinct : ((Exceptions.bindingsOf exceptions).map Prod.fst).Nodup)
    (found : ∀ slot value, (slot, value) ∈ Exceptions.bindingsOf exceptions →
      lookup exceptions slot = some value)
    (checked : ∀ slot value, (slot, value) ∈ Exceptions.bindingsOf exceptions →
      cells.get slot = token ∧ base + token ≤ value ∧ value ≤ Coupon.maxValue)
    (counted : (four cells exceptions).exceptionCount = (Exceptions.bindingsOf exceptions).length)
    (tokens : (List.range p.size).countP (cells.get · = token) = (Exceptions.bindingsOf exceptions).length) :
    Covered p base cells exceptions := by
  have inside : ∀ slot value, (slot, value) ∈ Exceptions.bindingsOf exceptions → slot < p.size := by
    intro slot value member
    cases exceptions with
    | none => cases member
    | some e =>
      obtain ⟨entry, _, same⟩ := List.mem_map.mp member
      cases same
      exact precision e rfl ▸ Nat.mod_lt _ e.precision.size_pos
  have subset : (Exceptions.bindingsOf exceptions).map Prod.fst ⊆
      (List.range p.size).filter (cells.get · = token) := by
    intro slot member
    obtain ⟨⟨other, value⟩, present, rfl⟩ := List.mem_map.mp member
    exact List.mem_filter.mpr ⟨List.mem_range.mpr (inside other value present),
      decide_eq_true (checked other value present).1⟩
  have length : ((List.range p.size).filter (cells.get · = token)).length ≤
      ((Exceptions.bindingsOf exceptions).map Prod.fst).length := by
    rw [← List.countP_eq_length_filter, tokens, List.length_map]
  have all := (distinct.subperm subset).perm_of_length_le length
  refine ⟨fun slot below => ?_, distinct, fun slot value member => ?_,
    fun slot value => ⟨mem_bindings_of_lookup, found slot value⟩, counted⟩
  · constructor
    · intro marked
      have member := all.symm.subset (List.mem_filter.mpr ⟨List.mem_range.mpr below, decide_eq_true marked⟩)
      obtain ⟨⟨other, value⟩, present, rfl⟩ := List.mem_map.mp member
      exact ⟨value, present⟩
    · rintro ⟨value, member⟩
      exact (checked slot value member).1
  · exact ⟨inside slot value member, (checked slot value member).2⟩

private theorem covered_iff_of_entries {entries : List Coupon} {e : Exceptions}
    (given : Gives (Exceptions.read p entries) bytes e rest)
    (tokens : (List.range p.size).countP (cells.get · = token) = entries.length)
    (checked : ∀ slot value, (slot, value) ∈ e.bindings →
      cells.get slot = token ∧ base + token ≤ value ∧ value ≤ Coupon.maxValue) :
    Covered p base cells (some e) ↔ ∀ entry ∈ entries, entry ≠ Coupon.empty := by
  constructor
  · intro covered
    apply Exceptions.taken_of_length_bindings given
    rw [← tokens, covered.countP_token, covered.count]
    rfl
  · intro taken
    obtain ⟨sound, precision, perm⟩ := Exceptions.sound_of_read taken given
    have length : e.bindings.length = entries.length := perm.length_eq.trans (List.length_map _)
    refine covered_of_count (fun f member => ?_) (Exceptions.nodup_slots sound.keyed)
      (fun slot value member => ?_) checked (Exceptions.count_eq sound.keyed) (tokens.trans length.symm)
    · obtain rfl := Option.some.inj member
      exact precision
    · exact (Exceptions.get?_eq_some_iff sound.keyed sound.room).mpr member

/-- Registers of a compact image are covered if and only if no entry looks free, and those of an updatable
one if and only if no register is repeated. -/
theorem covered_iff_of_read (given : Gives (read preamble count) bytes (.four cells exceptions) rest) :
    Covered preamble.precision preamble.count cells exceptions ↔
      (preamble.flags.layout = .compact → ∀ index <
        (List.range preamble.precision.size).countP (cells.get · = token),
          Reader.couponAt (bytes.drop (Nibbles.byteCount preamble.precision.size)).toArray (4 * index) ≠
            Coupon.empty) ∧
      (preamble.flags.layout = .updatable → ((Exceptions.bindingsOf exceptions).map Prod.fst).Nodup) := by
  obtain ⟨_, given, passed⟩ := exceptions_of_read given
  obtain ⟨tokens, checked⟩ := Exceptions.tokens_of_checkAgainst passed
  rw [tokens]
  have absent (none : exceptions = none ∧ count = 0) :
      Covered preamble.precision preamble.count cells exceptions := by
    obtain ⟨rfl, rfl⟩ := none
    exact covered_of_count (fun e member => by cases member) List.nodup_nil
      (fun slot value member => by cases member) checked rfl tokens
  cases layout : preamble.flags.layout with
  | compact =>
    rw [layout] at given
    simp only [reduceCtorEq, false_implies, and_true, true_implies]
    rcases Exceptions.exists_read_of_readCompact given with none | ⟨e, _, rfl, _, read⟩
    · refine ⟨fun _ index inside => ?_, fun _ => absent none⟩
      rw [none.2] at inside
      cases inside
    · rw [covered_iff_of_entries read (by rw [tokens, List.length_map, List.length_range]) checked,
        List.forall_mem_map]
      exact forall_congr' (fun index => by rw [List.mem_range])
  | updatable =>
    rw [layout] at given
    simp only [reduceCtorEq, false_implies, true_and, true_implies]
    refine ⟨Covered.distinct, fun distinct => ?_⟩
    rcases Exceptions.adopted_of_readUpdatable given with none | ⟨e, rfl, same, adopted⟩
    · exact absent none
    · refine covered_of_count (fun f member => ?_) distinct adopted.found checked adopted.counted ?_
      · obtain rfl := Option.some.inj member
        exact adopted.precision
      · rw [tokens, ← same]
        exact adopted.counted

theorem readable_of_read {r : Registers} (given : Gives (read preamble count) bytes r rest)
    (covered : ∀ cells exceptions, r = .four cells exceptions →
      Covered preamble.precision preamble.count cells exceptions) :
    r.Readable preamble.precision preamble.count ∧ r.width = preamble.width := by
  cases r with
  | four cells exceptions =>
    have covered := covered cells exceptions rfl
    obtain ⟨size, width⟩ := size_of_read given
    rw [← width] at size
    obtain ⟨_, given, passed⟩ := exceptions_of_read given
    obtain ⟨tokens, checked⟩ := Exceptions.tokens_of_checkAgainst passed
    refine ⟨⟨size, covered, fun e member => ?_⟩, width⟩
    obtain rfl : exceptions = some e := member
    cases layout : preamble.flags.layout with
    | compact =>
      rw [layout] at given
      rcases Exceptions.exists_read_of_readCompact given with none | ⟨f, _, same, used, read⟩
      · cases none.1
      · cases same
        have taken := (covered_iff_of_entries read
          (by rw [tokens, List.length_map, List.length_range]) checked).mp covered
        obtain ⟨sound, precision, perm⟩ := Exceptions.sound_of_read taken read
        refine ⟨sound.serviceable, precision, fun none => used ?_⟩
        have length := perm.length_eq
        rwa [none, List.length_nil, List.length_map, List.length_map, List.length_range, eq_comm] at length
    | updatable =>
      rw [layout] at given
      rcases Exceptions.adopted_of_readUpdatable given with none | ⟨f, same, _, adopted⟩
      · cases none.1
      · cases same
        refine ⟨adopted.serviceable covered.distinct (fun slot value member => ?_), adopted.precision, adopted.used⟩
        obtain ⟨_, least, most⟩ := covered.range slot value member
        exact ⟨Nat.lt_of_lt_of_le (Nat.lt_of_lt_of_le (by decide) (Nat.le_add_left token _)) least, most⟩
  | six cells =>
    obtain ⟨size, width⟩ := size_of_read given
    exact ⟨by rw [← width] at size; exact size, width⟩
  | eight cells =>
    obtain ⟨size, width⟩ := size_of_read given
    exact ⟨by rw [← width] at size; exact size, width⟩

end Registers

namespace RegisterArray

variable {bytes rest : List UInt8} {preamble : Preamble} {s : Store Float} {a b : RegisterArray Float}

/-- What is accepted keeps its registers and its base. No value is too large, and a tally that is not pending
counts the base as a scan does. -/
theorem described_of_accept {pending : Bool} (given : Gives (accept a pending) bytes b rest) :
    (b.precision = a.precision ∧ b.registers = a.registers ∧ b.tally = a.tally) ∧
      (∀ value ∈ b.values, value ≤ Coupon.maxValue) ∧
      (b.upkeep = .settled → b.tally.base = b.scan.base ∧ b.tally.atBase = b.scan.atBase) := by
  unfold accept at given
  dsimp only at given
  split at given
  · cases given
  · rename_i bounded
    have bounded : ∀ value ∈ a.values, value ≤ Coupon.maxValue := by
      simpa using Option.eq_none_iff_forall_ne_some.mpr bounded
    split_ifs at given
    · obtain ⟨rfl, _⟩ := given.pure
      refine ⟨⟨rfl, rfl, rfl⟩, bounded, fun settled => ?_⟩
      cases settled
    · obtain ⟨same, given⟩ := given.unless
      obtain ⟨_, given⟩ := given.unless
      obtain ⟨rfl, _⟩ := given.pure
      exact ⟨⟨rfl, rfl, rfl⟩, bounded, fun _ => by simpa [Tally.sameBase] using same⟩

/-- The parts are of the precision and at the base that the preamble names, and registers follow the numbers. -/
theorem registers_of_readParts (given : Gives (readParts preamble) bytes a rest) :
    (a.precision = preamble.precision ∧ a.tally.base = preamble.count) ∧
      (preamble.width ≠ .four → preamble.count = 0) ∧
      ∃ count, Gives (Registers.read preamble count) (bytes.drop 32) a.registers rest := by
  unfold readParts at given
  obtain ⟨historic, _, taken, given⟩ := given.bind
  obtain rfl := taken.float
  obtain ⟨low, _, taken, given⟩ := given.bind
  obtain rfl := taken.float
  obtain ⟨high, _, taken, given⟩ := given.bind
  obtain rfl := taken.float
  obtain ⟨atBase, _, taken, given⟩ := given.bind
  obtain ⟨_, rfl⟩ := taken.number
  obtain ⟨count, _, taken, given⟩ := given.bind
  obtain ⟨_, rfl⟩ := taken.number
  obtain ⟨_, given⟩ := given.unless
  obtain ⟨zero, given⟩ := given.unless
  obtain ⟨_, given⟩ := given.unless
  obtain ⟨_, given⟩ := given.unless
  obtain ⟨registers, mid, read, given⟩ := given.bind
  obtain ⟨rfl, rfl⟩ := given.pure
  have relative : preamble.width ≠ .four → preamble.count = 0 := by simpa using zero
  exact ⟨⟨rfl, rfl⟩, relative, count, by simpa only [List.drop_drop] using read⟩

theorem described_of_read (given : Gives (read preamble) bytes a rest) :
    (a.precision = preamble.precision ∧ a.tally.base = preamble.count) ∧
      (preamble.width ≠ .four → preamble.count = 0) ∧
      (∀ value ∈ a.values, value ≤ Coupon.maxValue) ∧
      (a.upkeep = .settled → a.tally.base = a.scan.base ∧ a.tally.atBase = a.scan.atBase) ∧
      ∃ count rest, Gives (Registers.read preamble count) (bytes.drop 32) a.registers rest := by
  obtain ⟨b, mid, parts, given⟩ := given.bind
  obtain ⟨⟨precision, base⟩, relative, count, read⟩ := registers_of_readParts parts
  obtain ⟨⟨samePrecision, same, tally⟩, bounded, described⟩ := described_of_accept given
  refine ⟨⟨samePrecision.trans precision, ?_⟩, relative, bounded, described, count, mid, ?_⟩
  · rw [tally, base]
  · rwa [same]

theorem read_of_store (registers : s = .registers a) (given : Gives (Store.read preamble) bytes s rest) :
    ∃ rest, Gives (read preamble) bytes a rest := by
  rcases Store.mode_cases_of_read given with list | set | ⟨array, last, same, read⟩
  · obtain ⟨_, same, _⟩ := Store.exists_list_of_readList list
    rw [registers] at same
    cases same
  · obtain ⟨_, same, _⟩ := Store.exists_set_of_readSet set
    rw [registers] at same
    cases same
  · rw [registers] at same
    cases same
    exact ⟨last, read⟩

variable {seed : UInt32} {t : Sketch Float} {cells : Nibbles} {exceptions : Option Exceptions}

/-- The registers of an accepted image have values in range, counted at the base, and can be read again
unless a token has no exception. -/
theorem readable_of_ofImage (accepted : Sketch.ofImage seed bytes = .ok t) (registers : t.store = .registers a)
    (covered : ∀ cells exceptions, a.registers = .four cells exceptions →
      Registers.Covered a.precision a.tally.base cells exceptions) :
    t.precision = a.precision ∧ a.registers.Readable a.precision a.tally.base ∧
      (a.width ≠ .four → a.tally.base = 0) ∧ (∀ value ∈ a.values, value ≤ Coupon.maxValue) ∧
      (a.upkeep = .settled → a.tally.base = a.scan.base ∧ a.tally.atBase = a.scan.atBase) := by
  obtain ⟨preamble, _, _, _, same, given⟩ := Sketch.exists_preamble_of_ofImage accepted
  obtain ⟨_, given⟩ := read_of_store registers given
  obtain ⟨⟨precision, base⟩, zero, bounded, described, _, _, given⟩ := described_of_read given
  rw [precision, base] at covered
  obtain ⟨readable, width⟩ := Registers.readable_of_read given covered
  rw [precision, base]
  exact ⟨same, readable, fun other => zero (width ▸ other), bounded, base ▸ described⟩

end RegisterArray

end DistinctCount
