import DistinctCount.Exceptions
import DistinctCount.Proofs.KeyedTable

namespace DistinctCount.Exceptions

variable {e f : Exceptions} {p : Precision} {slot other value old : Nat}

def keying (p : Precision) : CouponTable.Keying Nat := ⟨fun entry => entry.register p.size, id⟩

/-- A binding that an entry can hold without looking free. -/
def Storable (slot value : Nat) : Prop := Coupon.pack slot value ≠ Coupon.empty ∧ value ≤ Coupon.maxValue

/-- Exceptions in which each binding is found, of registers that exist. -/
structure Kept (e : Exceptions) : Prop where
  keyed : e.table.Keyed (keying e.precision)
  slots : ∀ entry ∈ e.table.occupied, entry.slot < e.precision.size

/-- Exceptions with room for a search to end, in a table that is no larger than the first one but for
need. -/
structure Sound (e : Exceptions) : Prop extends Kept e where
  load : e.table.isOverloaded = false
  least : lgMinSize e.precision ≤ e.table.lgSize
  needed : e.table.lgSize = lgMinSize e.precision ∨
    CouponTable.overloads e.count (e.table.lgSize - 1) = true

theorem size_le_slots (p : Precision) : p.size ≤ Coupon.slots :=
  Nat.pow_le_pow_right Nat.two_pos (Nat.le_trans p.le_twentyOne (by decide))

theorem slot_pack (inside : slot < p.size) (value : Nat) : (Coupon.pack slot value).slot = slot := by
  rw [Coupon.slot_pack, Nat.mod_eq_of_lt (Nat.lt_of_lt_of_le inside (size_le_slots p))]

theorem register_pack (inside : slot < p.size) (value : Nat) :
    (Coupon.pack slot value).register p.size = slot := by
  rw [Coupon.register, slot_pack inside, Nat.mod_eq_of_lt inside]

theorem storable_of_pos (positive : 0 < value) (bound : value ≤ Coupon.maxValue) : Storable slot value := by
  refine ⟨fun same => ?_, bound⟩
  have held := Coupon.value_pack slot value bound
  rw [same] at held
  simp [Coupon.value, Coupon.empty] at held
  omega

theorem count_eq (keyed : e.table.Keyed (keying e.precision)) : e.count = e.bindings.length := by
  rw [count, keyed.count_eq, bindings, List.length_map]

theorem nodup_slots (keyed : e.table.Keyed (keying e.precision)) : (e.bindings.map Prod.fst).Nodup := by
  rw [bindings, List.map_map]
  exact keyed.nodup_ident

theorem slot_lt_of_mem (e : Exceptions) {binding : Nat × Nat} (member : binding ∈ e.bindings) :
    binding.1 < e.precision.size := by
  obtain ⟨entry, _, rfl⟩ := List.mem_map.mp member
  exact Nat.mod_lt _ e.precision.size_pos

theorem count_le (keyed : e.table.Keyed (keying e.precision)) : e.count ≤ e.precision.size := by
  have slots : e.bindings.map Prod.fst ⊆ List.range e.precision.size := by
    intro slot member
    obtain ⟨binding, present, rfl⟩ := List.mem_map.mp member
    exact List.mem_range.mpr (e.slot_lt_of_mem present)
  have length := ((nodup_slots keyed).subperm slots).length_le
  rwa [List.length_map, List.length_range, ← count_eq keyed] at length

theorem nodup (keyed : e.table.Keyed (keying e.precision)) : e.bindings.Nodup :=
  (nodup_slots keyed).of_map _

theorem Kept.inside (kept : e.Kept) {binding : Nat × Nat} (member : binding ∈ e.bindings) :
    binding.1 < e.precision.size ∧ Storable binding.1 binding.2 := by
  refine ⟨e.slot_lt_of_mem member, ?_⟩
  obtain ⟨entry, present, rfl⟩ := List.mem_map.mp member
  have slot : entry.register e.precision.size = entry.slot := Nat.mod_eq_of_lt (kept.slots entry present)
  refine ⟨?_, entry.value_le_maxValue⟩
  rw [slot, Coupon.pack_slot_value]
  exact (CouponTable.mem_occupied.mp present).1

theorem get?_eq_some_iff (keyed : e.table.Keyed (keying e.precision)) (room : e.count < e.table.size) :
    e.get? slot = some value ↔ (slot, value) ∈ e.bindings := by
  have search : e.search slot = e.table.find (keying e.precision) slot := rfl
  simp only [bindings, List.mem_map, Prod.mk.injEq]
  rcases keyed.find_cases room slot with ⟨index, found, member, same⟩ | ⟨index, vacant, absent⟩
  · simp only [get?, search, found, Option.some.injEq]
    constructor
    · rintro rfl
      exact ⟨_, member, same, rfl⟩
    · rintro ⟨entry, present, register, rfl⟩
      obtain ⟨place, again, here⟩ := keyed.find_of_mem present
      have ident : (keying e.precision).ident entry = slot := register
      rw [ident, found] at again
      cases again
      rw [here]
  · simp only [get?, search, vacant, reduceCtorEq, false_iff]
    rintro ⟨entry, present, register, -⟩
    exact absent entry present register

theorem get?_eq_none_iff (keyed : e.table.Keyed (keying e.precision)) (room : e.count < e.table.size) :
    e.get? slot = none ↔ slot ∉ e.bindings.map Prod.fst := by
  rw [Option.eq_none_iff_forall_ne_some]
  simp [get?_eq_some_iff keyed room]

theorem place_of_keyed (keyed : e.table.Keyed (keying e.precision)) (room : e.count < e.table.size)
    (inside : slot < e.precision.size) (storable : Storable slot value)
    (free : slot ∉ e.bindings.map Prod.fst) :
    (e.place slot value).table.Keyed (keying (e.place slot value).precision) ∧
      (e.place slot value).table.occupied.Perm (Coupon.pack slot value :: e.table.occupied) ∧
      (e.place slot value).bindings.Perm ((slot, value) :: e.bindings) ∧
      (e.place slot value).table.lgSize = e.table.lgSize ∧
      (e.place slot value).precision = e.precision := by
  have search : e.search slot = e.table.find (keying e.precision) slot := rfl
  rcases keyed.find_cases room slot with ⟨index, _, member, same⟩ | ⟨index, vacant, _⟩
  · refine absurd ?_ free
    simp only [bindings, List.map_map, List.mem_map]
    exact ⟨_, member, same⟩
  · obtain ⟨below, unused⟩ := CouponTable.entry_of_find_vacant vacant
    have taken := storable.1
    have register := register_pack inside value
    have placed : e.place slot value =
        { e with table := e.table.fill index (Coupon.pack slot value) } := by
      simp only [place, search, vacant]
    have added := CouponTable.occupied_fill (by rwa [keyed.size_entries]) unused taken
    rw [placed]
    refine ⟨keyed.fill vacant taken register, added, ?_, rfl, rfl⟩
    have mapped := added.map (fun entry : Coupon => (entry.register e.precision.size, entry.value))
    simpa only [bindings, List.map_cons, register, Coupon.value_pack slot value storable.2]
      using mapped

theorem place_spec (kept : e.Kept) (room : e.count < e.table.size) (inside : slot < e.precision.size)
    (storable : Storable slot value) (free : slot ∉ e.bindings.map Prod.fst) :
    (e.place slot value).Kept ∧ (e.place slot value).bindings.Perm ((slot, value) :: e.bindings) ∧
      (e.place slot value).table.lgSize = e.table.lgSize ∧
      (e.place slot value).precision = e.precision := by
  obtain ⟨keyed, added, perm, size, same⟩ := place_of_keyed kept.keyed room inside storable free
  refine ⟨⟨keyed, fun entry member => ?_⟩, perm, size, same⟩
  rw [same]
  rcases List.mem_cons.mp (added.subset member) with rfl | present
  · rwa [slot_pack inside]
  · exact kept.slots entry present

theorem placeAll_spec (pairs : List (Nat × Nat)) (kept : e.Kept)
    (inside : ∀ pair ∈ pairs, pair.1 < e.precision.size ∧ Storable pair.1 pair.2)
    (distinct : ((pairs ++ e.bindings).map Prod.fst).Nodup)
    (room : pairs.length + e.count ≤ e.table.size) :
    let filled := pairs.foldl (fun e (slot, value) => e.place slot value) e
    filled.Kept ∧ filled.bindings.Perm (pairs ++ e.bindings) ∧
      filled.table.lgSize = e.table.lgSize ∧ filled.precision = e.precision := by
  induction pairs generalizing e with
  | nil => exact ⟨kept, .refl _, rfl, rfl⟩
  | cons pair rest ih =>
    simp only [List.length_cons] at room
    obtain ⟨bound, storable⟩ := inside pair (by simp)
    have free : pair.1 ∉ e.bindings.map Prod.fst := by
      intro member
      rw [List.cons_append, List.map_cons, List.nodup_cons, List.map_append] at distinct
      exact distinct.1 (List.mem_append_right _ member)
    obtain ⟨kept', added, size', same⟩ := place_spec kept (by omega) bound storable free
    have moved : (rest ++ (e.place pair.1 pair.2).bindings).Perm (pair :: rest ++ e.bindings) :=
      (added.append_left rest).trans List.perm_middle
    have counted : (e.place pair.1 pair.2).count = e.count + 1 := by
      rw [count_eq kept'.keyed, added.length_eq, List.length_cons, count_eq kept.keyed]
    obtain ⟨kept'', all, size'', same'⟩ := ih kept'
      (fun other member => by rw [same]; exact inside other (by simp [member]))
      ((moved.map Prod.fst).nodup_iff.mpr distinct)
      (by simp only [CouponTable.size, size', counted] at room ⊢; omega)
    exact ⟨kept'', all.trans moved, size''.trans size', same'.trans same⟩

theorem grown_spec (keyed : e.table.Keyed (keying e.precision))
    (storable : ∀ binding ∈ e.bindings, Storable binding.1 binding.2) (room : e.count ≤ 2 * e.table.size) :
    e.grown.Kept ∧ e.grown.bindings.Perm e.bindings ∧
      e.grown.table.lgSize = e.table.lgSize + 1 ∧ e.grown.precision = e.precision := by
  let bigger : Exceptions := ⟨e.precision, .empty (e.table.lgSize + 1)⟩
  have none : bigger.table.occupied = [] := CouponTable.occupied_empty _
  have free : bigger.bindings = [] := by simp [bindings, none]
  obtain ⟨kept', all, size', same⟩ := placeAll_spec (e := bigger) e.bindings
    ⟨CouponTable.keyed_empty _ _, by simp [none]⟩
    (fun pair member => ⟨e.slot_lt_of_mem member, storable pair member⟩)
    (by rw [free, List.append_nil]; exact nodup_slots keyed)
    (by
      rw [← count_eq keyed]
      simpa [bigger, count, CouponTable.empty, CouponTable.size, Nat.pow_succ, Nat.mul_comm] using room)
  rw [free, List.append_nil] at all
  exact ⟨kept', all, size', same⟩

theorem sound_empty (p : Precision) : (empty p).Sound where
  keyed := CouponTable.keyed_empty _ _
  slots := by simp [empty, CouponTable.occupied_empty]
  load := by simp [empty, CouponTable.empty, CouponTable.isOverloaded, CouponTable.overloads]
  least := Nat.le_refl _
  needed := .inl rfl

theorem bindings_empty (p : Precision) : (empty p).bindings = [] := by
  simp [bindings, empty, CouponTable.occupied_empty]

theorem two_le_lgMinSize (p : Precision) : 2 ≤ lgMinSize p := by
  have := p.four_le
  unfold lgMinSize
  split_ifs <;> omega

theorem Sound.room (sound : e.Sound) : e.count < e.table.size := CouponTable.room_of_load sound.load

theorem get?_empty (p : Precision) (slot : Nat) : (empty p).get? slot = none :=
  (get?_eq_none_iff (sound_empty p).keyed (sound_empty p).room).mpr (by simp [bindings_empty])

/-- A new binding is added, and the table doubled only if that overloads it. -/
theorem insert_spec (sound : e.Sound) (inside : slot < e.precision.size) (storable : Storable slot value)
    (free : e.get? slot = none) :
    (e.insert slot value).Sound ∧ (e.insert slot value).bindings.Perm ((slot, value) :: e.bindings) ∧
      (e.insert slot value).precision = e.precision := by
  have absent := (get?_eq_none_iff sound.keyed sound.room).mp free
  obtain ⟨kept, added, size', same⟩ := place_spec sound.toKept sound.room inside storable absent
  have counted : (e.place slot value).count = e.count + 1 := by
    rw [count_eq kept.keyed, added.length_eq, List.length_cons, count_eq sound.keyed]
  have load : 4 * e.count ≤ 3 * 2 ^ e.table.lgSize := CouponTable.load_iff.mp sound.load
  have least := sound.least
  have two := two_le_lgMinSize e.precision
  simp only [insert, contains, free, Option.isSome_none, Bool.false_eq_true, if_false]
  by_cases crowded : (e.place slot value).table.isOverloaded = true
  · have four : 2 ^ 2 ≤ 2 ^ e.table.lgSize := Nat.pow_le_pow_right Nat.two_pos (by omega)
    have fits : (e.place slot value).count ≤ 2 * (e.place slot value).table.size := by
      rw [counted]
      rw [CouponTable.size, size']
      omega
    obtain ⟨kept', all, size'', same'⟩ :=
      grown_spec kept.keyed (fun _ member => (kept.inside member).2) fits
    have counted' : (e.place slot value).grown.count = e.count + 1 := by
      rw [count_eq kept'.keyed, all.length_eq, ← count_eq kept.keyed, counted]
    rw [if_pos crowded]
    refine ⟨⟨kept', ?_, ?_, .inr ?_⟩, all.trans added, same'.trans same⟩
    · refine CouponTable.load_iff.mpr ?_
      change 4 * (e.place slot value).grown.count ≤ _
      rw [counted', CouponTable.size, size'', size', Nat.pow_succ]
      omega
    · rw [size'', size', same', same]
      omega
    · rw [counted', size'', size', Nat.add_sub_cancel]
      rw [CouponTable.isOverloaded, size'] at crowded
      exact counted ▸ crowded
  · rw [if_neg crowded]
    refine ⟨⟨kept, by simpa using crowded, by rw [same, size']; exact least, ?_⟩, added, same⟩
    rw [size', same, counted]
    apply sound.needed.imp_right
    intro overloaded
    simp only [CouponTable.overloads, decide_eq_true_eq] at overloaded ⊢
    omega

theorem replace_of_keyed (keyed : e.table.Keyed (keying e.precision)) (room : e.count < e.table.size)
    (inside : slot < e.precision.size) (storable : Storable slot value) (held : e.get? slot = some old) :
    (e.replace slot value).table.Keyed (keying (e.replace slot value).precision) ∧
      (∀ entry ∈ (e.replace slot value).table.occupied,
        entry = Coupon.pack slot value ∨ entry ∈ e.table.occupied) ∧
      (∃ rest, e.bindings.Perm ((slot, old) :: rest) ∧
        (e.replace slot value).bindings.Perm ((slot, value) :: rest)) ∧
      (e.replace slot value).table.lgSize = e.table.lgSize ∧
      (e.replace slot value).count = e.count ∧ (e.replace slot value).precision = e.precision := by
  have search : e.search slot = e.table.find (keying e.precision) slot := rfl
  have member := (get?_eq_some_iff keyed room).mp held
  rcases keyed.find_cases room slot with
    ⟨index, found, present, same⟩ | ⟨index, _, absent⟩
  · have taken := storable.1
    have register := register_pack inside value
    have replaced : e.replace slot value =
        { e with table := e.table.replace index (Coupon.pack slot value) } := by
      simp only [replace, search, found]
    obtain ⟨before, ident⟩ := CouponTable.entry_of_find_found found
    have bound := CouponTable.lt_of_taken before
    obtain ⟨rest, left, right⟩ := CouponTable.occupied_replace bound before taken
    have value_old : (e.table.entry index).value = old := by
      have read := held
      simp only [get?, search, found, Option.some.injEq] at read
      exact read
    rw [replaced]
    refine ⟨keyed.replace found taken register, fun entry member => ?_, ?_, rfl, rfl, rfl⟩
    · rcases List.mem_cons.mp (right.subset member) with new | other
      · exact .inl new
      · exact .inr (left.symm.subset (List.mem_cons_of_mem _ other))
    · let read := fun entry : Coupon => (entry.register e.precision.size, entry.value)
      have ident' : (e.table.entry index).register e.precision.size = slot := ident
      refine ⟨rest.map read, ?_, ?_⟩
      · simpa only [bindings, List.map_cons, read, ident', value_old] using left.map read
      · simpa only [bindings, List.map_cons, read, register, Coupon.value_pack slot value storable.2]
          using right.map read
  · simp only [bindings, List.mem_map, Prod.mk.injEq] at member
    obtain ⟨entry, present, register, -⟩ := member
    exact absurd register (absent entry present)

theorem replace_spec (sound : e.Sound) (inside : slot < e.precision.size) (storable : Storable slot value)
    (held : e.get? slot = some old) :
    (e.replace slot value).Sound ∧
      (∃ rest, e.bindings.Perm ((slot, old) :: rest) ∧
        (e.replace slot value).bindings.Perm ((slot, value) :: rest)) ∧
      (e.replace slot value).precision = e.precision := by
  obtain ⟨keyed, entries, changed, size, counted, same⟩ :=
    replace_of_keyed sound.keyed sound.room inside storable held
  refine ⟨⟨⟨keyed, fun entry member => ?_⟩, ?_, ?_, ?_⟩, changed, same⟩
  · rw [same]
    rcases entries entry member with rfl | other
    · rwa [slot_pack inside]
    · exact sound.slots entry other
  · have load := sound.load
    rw [CouponTable.isOverloaded] at load ⊢
    rw [size, show (e.replace slot value).table.count = e.table.count from counted]
    exact load
  · rw [same, size]
    exact sound.least
  · rw [same, size, counted]
    exact sound.needed

/-- Exceptions that can be read and raised wherever their table came from. It may be fuller than one that
was grown here, and larger. -/
structure Serviceable (e : Exceptions) : Prop where
  keyed : e.table.Keyed (keying e.precision)
  room : e.count < e.table.size
  storable : ∀ binding ∈ e.bindings, Storable binding.1 binding.2
  size_le : e.table.lgSize ≤ lgMaxSize e.precision

theorem lgSize_lt_of_overloads {p : Precision} {count lgSize : Nat} (few : count ≤ p.size)
    (crowded : CouponTable.overloads count lgSize = true) : lgSize < lgMaxSize p := by
  by_contra large
  have grows : 2 ^ (p.lg + 1) ≤ 2 ^ lgSize := Nat.pow_le_pow_right Nat.two_pos (Nat.le_of_not_lt large)
  rw [CouponTable.overloads, decide_eq_true_eq] at crowded
  rw [Precision.size] at few
  rw [Nat.pow_succ] at grows
  omega

theorem Serviceable.insert_spec (serviceable : e.Serviceable) (inside : slot < e.precision.size)
    (storable : Storable slot value) (free : e.get? slot = none) :
    (e.insert slot value).Serviceable ∧ (e.insert slot value).bindings.Perm ((slot, value) :: e.bindings) ∧
      (e.insert slot value).precision = e.precision := by
  obtain ⟨keyed, room, all, most⟩ := serviceable
  have absent := (get?_eq_none_iff keyed room).mp free
  obtain ⟨keyed', _, added, size', same⟩ := place_of_keyed keyed room inside storable absent
  have counted : (e.place slot value).count = e.count + 1 := by
    rw [count_eq keyed', added.length_eq, List.length_cons, count_eq keyed]
  have storable' : ∀ binding ∈ (e.place slot value).bindings, Storable binding.1 binding.2 := by
    intro binding member
    rcases List.mem_cons.mp (added.subset member) with rfl | old
    · exact storable
    · exact all binding old
  have size : (e.place slot value).table.size = e.table.size := by
    rw [CouponTable.size, CouponTable.size, size']
  simp only [insert, contains, free, Option.isSome_none, Bool.false_eq_true, if_false]
  by_cases crowded : (e.place slot value).table.isOverloaded = true
  · obtain ⟨kept, perm, size'', same'⟩ := grown_spec keyed' storable' (by omega)
    rw [if_pos crowded]
    refine ⟨⟨kept.keyed, ?_, fun binding member => storable' binding (perm.subset member), ?_⟩,
      perm.trans added, same'.trans same⟩
    · rw [count_eq kept.keyed, perm.length_eq, ← count_eq keyed', CouponTable.size, size'', Nat.pow_succ]
      have := e.table.size_pos
      rw [CouponTable.size] at size
      rw [size, counted]
      omega
    · rw [size'', same']
      exact lgSize_lt_of_overloads (count_le keyed') crowded
  · rw [if_neg crowded]
    refine ⟨⟨keyed', CouponTable.room_of_load (by simpa using crowded), storable', ?_⟩, added, same⟩
    rw [same, size']
    exact most

theorem Serviceable.replace_spec (serviceable : e.Serviceable) (inside : slot < e.precision.size)
    (storable : Storable slot value) (held : e.get? slot = some old) :
    (e.replace slot value).Serviceable ∧
      (∃ rest, e.bindings.Perm ((slot, old) :: rest) ∧
        (e.replace slot value).bindings.Perm ((slot, value) :: rest)) ∧
      (e.replace slot value).precision = e.precision := by
  obtain ⟨keyed, room, all, most⟩ := serviceable
  obtain ⟨keyed', _, ⟨rest, before, after⟩, size, counted, same⟩ :=
    replace_of_keyed keyed room inside storable held
  refine ⟨⟨keyed', ?_, fun binding member => ?_, ?_⟩, ⟨rest, before, after⟩, same⟩
  · rw [counted, CouponTable.size, size]
    exact room
  · rcases List.mem_cons.mp (after.subset member) with rfl | other
    · exact storable
    · exact all binding (before.symm.subset (List.mem_cons_of_mem _ other))
  · rw [same, size]
    exact most

theorem lgMinSize_le_lgMaxSize (p : Precision) : lgMinSize p ≤ lgMaxSize p := by
  have := p.four_le
  rw [lgMinSize, lgMaxSize]
  split_ifs <;> omega

theorem lgMaxSize_le (p : Precision) : lgMaxSize p ≤ 22 := Nat.succ_le_succ p.le_twentyOne

theorem Sound.lgSize_le (sound : e.Sound) : e.table.lgSize ≤ lgMaxSize e.precision := by
  rcases sound.needed with first | overloaded
  · exact first.trans_le (lgMinSize_le_lgMaxSize e.precision)
  · exact Nat.le_of_pred_lt (lgSize_lt_of_overloads (count_le sound.keyed) overloaded)

theorem Sound.serviceable (sound : e.Sound) : e.Serviceable :=
  ⟨sound.keyed, sound.room, fun _ member => (sound.toKept.inside member).2, sound.lgSize_le⟩

private theorem get?_of_perm {rest : List (Nat × Nat)} (serviceable : f.Serviceable)
    (perm : f.bindings.Perm ((slot, value) :: rest)) :
    f.get? slot = some value ∧
      ∀ other ≠ slot, ∀ held, f.get? other = some held ↔ (other, held) ∈ rest := by
  refine ⟨(get?_eq_some_iff serviceable.keyed serviceable.room).mpr (perm.symm.subset (by simp)), ?_⟩
  intro other apart held
  rw [get?_eq_some_iff serviceable.keyed serviceable.room, perm.mem_iff]
  simp [apart]

theorem get?_insert (serviceable : e.Serviceable) (inside : slot < e.precision.size)
    (storable : Storable slot value) (free : e.get? slot = none) (other : Nat) :
    (e.insert slot value).get? other = if other = slot then some value else e.get? other := by
  obtain ⟨serviceable', added, _⟩ := serviceable.insert_spec inside storable free
  obtain ⟨here, elsewhere⟩ := get?_of_perm serviceable' added
  split_ifs with same
  · rw [same, here]
  · apply Option.ext
    intro held
    rw [elsewhere other same held, get?_eq_some_iff serviceable.keyed serviceable.room]

theorem get?_replace (serviceable : e.Serviceable) (inside : slot < e.precision.size)
    (storable : Storable slot value) (held : e.get? slot = some old) (other : Nat) :
    (e.replace slot value).get? other = if other = slot then some value else e.get? other := by
  obtain ⟨serviceable', ⟨rest, before, after⟩, _⟩ := serviceable.replace_spec inside storable held
  obtain ⟨here, elsewhere⟩ := get?_of_perm serviceable' after
  obtain ⟨_, unchanged⟩ := get?_of_perm serviceable before
  split_ifs with same
  · rw [same, here]
  · apply Option.ext
    intro value
    rw [elsewhere other same value, unchanged other same value]

theorem bindings_perm (left : e.Serviceable) (right : f.Serviceable)
    (alike : ∀ slot, e.get? slot = f.get? slot) : e.bindings.Perm f.bindings := by
  rw [List.perm_ext_iff_of_nodup (nodup left.keyed) (nodup right.keyed)]
  rintro ⟨slot, value⟩
  rw [← get?_eq_some_iff left.keyed left.room, alike, get?_eq_some_iff right.keyed right.room]

theorem get?_eq_of_perm (left : e.Serviceable) (right : f.Serviceable) (perm : e.bindings.Perm f.bindings)
    (slot : Nat) : e.get? slot = f.get? slot := by
  apply Option.ext
  intro value
  rw [get?_eq_some_iff left.keyed left.room, perm.mem_iff, get?_eq_some_iff right.keyed right.room]

theorem lgSize_eq_of_count_eq (left : e.Sound) (right : f.Sound) (precision : e.precision = f.precision)
    (counts : e.count = f.count) : e.table.lgSize = f.table.lgSize := by
  have smallest {g h : Exceptions} (sound : g.Sound) (other : h.Sound)
      (precision : g.precision = h.precision) (counts : g.count = h.count) :
      g.table.lgSize ≤ h.table.lgSize := by
    by_contra larger
    rcases sound.needed with first | overloaded
    · have := other.least
      rw [precision] at first
      omega
    · have load : 4 * h.count ≤ 3 * 2 ^ h.table.lgSize := CouponTable.load_iff.mp other.load
      have grows : 2 ^ h.table.lgSize ≤ 2 ^ (g.table.lgSize - 1) :=
        Nat.pow_le_pow_right Nat.two_pos (by omega)
      rw [counts, CouponTable.overloads, decide_eq_true_eq] at overloaded
      omega
  exact Nat.le_antisymm (smallest left right precision counts)
    (smallest right left precision.symm counts.symm)

end DistinctCount.Exceptions
