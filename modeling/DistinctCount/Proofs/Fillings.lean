import DistinctCount.Proofs.Bindings
import DistinctCount.Proofs.Guards
import Mathlib.Tactic.IntervalCases

/-! Exceptions that are read and searched with guarded steps. Repeated entries that look free are counted
but not kept, so a table is told to grow by its count, and has room by its entries. -/

namespace DistinctCount

namespace Exceptions

variable {e : Exceptions} {p : Precision} {slot value count : Nat}

/-- The base-two logarithms of the first tables, for each precision. -/
def lgMinSizes : List Nat :=
  [0, 2, 2, 2, 2, 2, 2, 3, 3, 3, 4, 4, 5, 5, 6, 7, 8, 9, 10, 11, 12, 13, 14, 15, 16, 17, 18]

def empty? (p : Precision) : Option Exceptions := do
  let lgSize ← lgMinSizes[p.lg]?
  let _size ← Word.shl Word.index 1 lgSize
  return ⟨p, .empty lgSize⟩

theorem empty?_eq (p : Precision) : empty? p = some (empty p) := by
  have shown : lgMinSizes[p.lg]? = some (lgMinSize p) ∧ lgMinSize p < Word.index := by
    obtain ⟨lg, least, most⟩ := p
    simp only [lgMinSize]
    interval_cases lg <;> decide
  rw [empty?, shown.1, Option.bind_eq_bind, Option.bind_some, Word.shl_one shown.2]
  rfl

/-- The bits of a slot that name a register. -/
def mask? (p : Precision) : Option Nat := do
  let size ← Word.shl 32 1 p.lg
  Nat.psub size 1

def search? (e : Exceptions) (slot : Nat) : Option Probe := do
  let mask ← mask? e.precision
  e.table.search? slot slot fun entry => entry.slot &&& mask = slot

def bindings? (e : Exceptions) : Option (List (Nat × Nat)) := do
  let mask ← mask? e.precision
  return e.table.occupied.map fun entry => (entry.slot &&& mask, entry.value)

def value? (e : Exceptions) (slot : Nat) : Option (Option Nat) := do
  match ← e.search? slot with
  | .found index => return some (← e.table.entries[index]?).value
  | _ => return none

theorem mask?_eq (p : Precision) : mask? p = some (p.size - 1) := by
  rw [mask?, Word.shl_lg]
  exact Nat.psub_eq_sub p.size_pos

private theorem slot_and (p : Precision) (entry : Coupon) : entry.slot &&& (p.size - 1) = entry.register p.size :=
  Nat.and_two_pow_sub_one_eq_mod entry.slot p.lg

theorem bindings?_eq (e : Exceptions) : e.bindings? = some e.bindings := by
  rw [bindings?, mask?_eq, Option.bind_eq_bind, Option.bind_some]
  simp only [slot_and]
  rfl

theorem search?_eq (searchable : e.table.Searchable) (inside : slot < e.precision.size) :
    e.search? slot = some (e.search slot) := by
  rw [search?, mask?_eq, Option.bind_eq_bind, Option.bind_some]
  simp only [slot_and]
  exact CouponTable.search?_eq searchable _ rfl (Nat.lt_of_lt_of_le inside (size_le_slots e.precision))

theorem value?_eq (searchable : e.table.Searchable) (inside : slot < e.precision.size) :
    e.value? slot = some (e.get? slot) := by
  rw [value?, search?_eq searchable inside, Option.bind_eq_bind, Option.bind_some, get?]
  cases result : e.search slot with
  | found index =>
    have below := (CouponTable.search_found_iff.mp result).1.lt_size
    dsimp only
    rw [CouponTable.getElem?_entries searchable.sized below]
    rfl
  | vacant | exhausted => rfl

/-- Binds a register in the table as it is, and tells whether that overloads it. -/
def place? (e : Exceptions) (slot value : Nat) : Option (Exceptions × Bool) := do
  match ← e.search? slot with
  | .vacant index =>
    let _entry ← e.table.entries[index]?
    let count ← Word.add 32 e.count 1
    let load ← Word.mul 32 4 count
    let limit ← Word.mul 32 3 (← Word.shl 32 1 e.table.lgSize)
    return ({ e with table := e.table.fill index (Coupon.pack slot value) }, decide (limit < load))
  | _ => return (e, false)

/-- Binds a register in a table that must not be overloaded by it. -/
def placeWithin? (e : Exceptions) (pair : Nat × Nat) : Option Exceptions := do
  let (placed, crowded) ← e.place? pair.1 pair.2
  if crowded then none else return placed

/-- The same bindings in a table of twice the size, which must not grow in turn. -/
def grown? (e : Exceptions) : Option Exceptions := do
  let lgSize ← Word.add 8 e.table.lgSize 1
  let _size ← Word.shl Word.index 1 lgSize
  (← e.bindings?).foldlM placeWithin? ⟨e.precision, .empty lgSize⟩

def insert? (e : Exceptions) (slot value : Nat) : Option Exceptions := do
  let (placed, crowded) ← e.place? slot value
  if crowded then placed.grown? else return placed

/-- The entries of a table are of its size, and it counts at least those that are taken. An entry that looks
free is counted as well. -/
structure Tabled (e : Exceptions) : Prop where
  sized : e.table.entries.size = e.table.size
  occupied : e.table.occupied.length ≤ e.count

theorem tabled_empty (p : Precision) (lgSize : Nat) : (⟨p, .empty lgSize⟩ : Exceptions).Tabled where
  sized := CouponTable.size_empty lgSize
  occupied := by simp [CouponTable.occupied_empty]

theorem Tabled.searchable (tabled : e.Tabled) (room : e.count < e.table.size) (small : e.table.lgSize ≤ 22) :
    e.table.Searchable :=
  ⟨tabled.sized, Nat.lt_of_le_of_lt tabled.occupied room, small⟩

theorem precision_place (e : Exceptions) (slot value : Nat) : (e.place slot value).precision = e.precision := by
  unfold place
  split <;> rfl

theorem lgSize_place (e : Exceptions) (slot value : Nat) :
    (e.place slot value).table.lgSize = e.table.lgSize := by
  unfold place
  split <;> rfl

theorem count_place_le (e : Exceptions) (slot value : Nat) : (e.place slot value).count ≤ e.count + 1 := by
  unfold place
  split
  · exact Nat.le_refl _
  · exact Nat.le_succ _

theorem Tabled.place (tabled : e.Tabled) (slot value : Nat) : (e.place slot value).Tabled := by
  unfold Exceptions.place
  split
  · rename_i index _
    have one : [Coupon.pack slot value].countP (· ≠ Coupon.empty) ≤ 1 := List.countP_le_length
    refine ⟨by simpa [CouponTable.fill, CouponTable.size] using tabled.sized, ?_⟩
    exact Nat.le_trans (CouponTable.length_occupied_fill_le _ _ _) (Nat.add_le_add tabled.occupied one)
  · exact tabled

theorem place?_eq (searchable : e.table.Searchable) (inside : slot < e.precision.size)
    (few : e.count < 2 ^ 22) (value : Nat) :
    e.place? slot value =
      some (e.place slot value, !e.contains slot && (e.place slot value).table.isOverloaded) := by
  have small := searchable.small
  have size : Word.shl 32 1 e.table.lgSize = some e.table.size := Word.shl_one (by omega)
  have most := searchable.size_le
  have limit : Word.mul 32 3 e.table.size = some (3 * e.table.size) := Word.mul_eq (by omega)
  have count : Word.add 32 e.count 1 = some (e.count + 1) := Word.add_eq (by omega)
  have load : Word.mul 32 4 (e.count + 1) = some (4 * (e.count + 1)) := Word.mul_eq (by omega)
  rw [place?, search?_eq searchable inside, Option.bind_eq_bind, Option.bind_some, Exceptions.place, contains,
    get?]
  cases result : e.search slot with
  | vacant index =>
    have below := (CouponTable.search_vacant_iff.mp result).1.lt_size
    simp only [CouponTable.getElem?_entries searchable.sized below, count, load, size, limit,
      Option.bind_eq_bind, Option.bind_some]
    rfl
  | found => rfl
  | exhausted => exact absurd result (CouponTable.search_ne_exhausted searchable)

theorem Tabled.placeAll (tabled : e.Tabled) (pairs : List (Nat × Nat)) :
    let filled := pairs.foldl (fun e (slot, value) => e.place slot value) e
    filled.Tabled ∧ filled.precision = e.precision ∧ filled.table.lgSize = e.table.lgSize ∧
      filled.count ≤ e.count + pairs.length := by
  induction pairs generalizing e with
  | nil => exact ⟨tabled, rfl, rfl, Nat.le_refl _⟩
  | cons pair rest ih =>
    obtain ⟨filled, precision, lgSize, bound⟩ := ih (tabled.place pair.1 pair.2)
    have counted := count_place_le e pair.1 pair.2
    refine ⟨filled, precision.trans (precision_place e _ _), lgSize.trans (lgSize_place e _ _), ?_⟩
    rw [List.length_cons]
    exact Nat.le_trans bound (by omega)

theorem tabled_grown (e : Exceptions) :
    e.grown.Tabled ∧ e.grown.precision = e.precision ∧ e.grown.table.lgSize = e.table.lgSize + 1 ∧
      e.grown.count ≤ e.bindings.length := by
  obtain ⟨tabled, precision, width, counted⟩ :=
    (tabled_empty e.precision (e.table.lgSize + 1)).placeAll e.bindings
  exact ⟨tabled, precision, width, counted.trans_eq (Nat.zero_add _)⟩

theorem Tabled.length_bindings_le (tabled : e.Tabled) : e.bindings.length ≤ e.count := by
  rw [bindings, List.length_map]
  exact tabled.occupied

private theorem refill?_eq {pairs : List (Nat × Nat)} (tabled : e.Tabled) (small : e.table.lgSize ≤ 22)
    (inside : ∀ pair ∈ pairs, pair.1 < e.precision.size)
    (room : 4 * (e.count + pairs.length) ≤ 3 * e.table.size) :
    pairs.foldlM placeWithin? e = some (pairs.foldl (fun e (slot, value) => e.place slot value) e) := by
  induction pairs generalizing e with
  | nil => rfl
  | cons pair rest ih =>
    rw [List.length_cons] at room
    have positive := e.table.size_pos
    have most : e.table.size ≤ 2 ^ 22 := Nat.pow_le_pow_right Nat.two_pos small
    have precision := precision_place e pair.1 pair.2
    have lgSize := lgSize_place e pair.1 pair.2
    have counted := count_place_le e pair.1 pair.2
    have width : (e.place pair.1 pair.2).table.size = e.table.size := congrArg (2 ^ ·) lgSize
    have placed := place?_eq (tabled.searchable (by omega) small) (inside pair List.mem_cons_self) (by omega)
      pair.2
    have light : (e.place pair.1 pair.2).table.isOverloaded = false := by
      refine CouponTable.load_iff.mpr ?_
      rw [width]
      exact Nat.le_trans (Nat.mul_le_mul_left 4 counted) (by omega)
    have others := ih (tabled.place pair.1 pair.2) (lgSize ▸ small)
      (fun other member => precision ▸ inside other (List.mem_cons_of_mem _ member)) (by rw [width]; omega)
    rw [List.foldlM_cons, placeWithin?, placed, light, Bool.and_false]
    exact others

/-- Exceptions that are read one after the other: at most `done` of them so far, in a table that grew for
need. -/
structure Filling (p : Precision) (done : Nat) (e : Exceptions) : Prop extends Tabled e where
  precision : e.precision = p
  few : e.count ≤ done
  load : e.table.isOverloaded = false
  least : lgMinSize p ≤ e.table.lgSize
  needed : e.table.lgSize = lgMinSize p ∨ CouponTable.overloads done (e.table.lgSize - 1) = true

theorem filling_empty (p : Precision) : Filling p 0 (empty p) where
  toTabled := tabled_empty p _
  precision := rfl
  few := Nat.le_refl 0
  load := (sound_empty p).load
  least := Nat.le_refl _
  needed := .inl rfl

/-- A table that grew for no more exceptions than there are registers is not too large for a search. -/
private theorem lgSize_le_of_needed {lgSize : Nat} (few : count ≤ p.size)
    (needed : lgSize = lgMinSize p ∨ CouponTable.overloads count (lgSize - 1) = true) : lgSize ≤ 22 := by
  suffices most : lgSize ≤ lgMaxSize p from Nat.le_trans most (lgMaxSize_le p)
  rcases needed with rfl | crowded
  · exact lgMinSize_le_lgMaxSize p
  · exact Nat.le_of_pred_lt (lgSize_lt_of_overloads few crowded)

theorem Filling.searchable (filling : e.Filling p count) (few : count ≤ p.size) : e.table.Searchable :=
  filling.toTabled.searchable (CouponTable.room_of_load filling.load)
    (lgSize_le_of_needed few filling.needed)

private theorem grown?_spec (tabled : e.Tabled) (few : e.count ≤ count) (most : count ≤ e.precision.size)
    (least : lgMinSize e.precision ≤ e.table.lgSize) (crowded : e.table.isOverloaded = true)
    (room : 4 * e.count ≤ 3 * (2 * e.table.size)) :
    e.grown? = some e.grown ∧ e.grown.Filling e.precision count := by
  have bound := tabled.length_bindings_le
  have needed : CouponTable.overloads count e.table.lgSize = true := by
    rw [CouponTable.isOverloaded] at crowded
    simp only [CouponTable.overloads, decide_eq_true_eq] at crowded ⊢
    exact Nat.lt_of_lt_of_le crowded (Nat.mul_le_mul_left 4 few)
  have small : e.table.lgSize + 1 ≤ 22 := lgSize_le_of_needed most (.inr needed)
  have lgSize : Word.add 8 e.table.lgSize 1 = some (e.table.lgSize + 1) := Word.add_eq (by omega)
  have size : Word.shl Word.index 1 (e.table.lgSize + 1) = some (2 ^ (e.table.lgSize + 1)) :=
    Word.shl_one (Nat.lt_of_le_of_lt small (by decide))
  have twice : 2 ^ (e.table.lgSize + 1) = 2 * e.table.size := Nat.pow_succ'
  have fits : 4 * e.bindings.length ≤ 3 * 2 ^ (e.table.lgSize + 1) := by omega
  have start := tabled_empty e.precision (e.table.lgSize + 1)
  have all := refill?_eq start small (fun pair member => slot_lt_of_mem e member)
    (by rwa [← Nat.zero_add e.bindings.length] at fits)
  obtain ⟨tabled', precision, width, counted⟩ := tabled_grown e
  refine ⟨?_, tabled', precision, by omega, ?_, ?_, .inr ?_⟩
  · rw [grown?, lgSize, Option.bind_eq_bind, Option.bind_some, size, Option.bind_some, bindings?_eq]
    exact all
  · refine CouponTable.load_iff.mpr ?_
    rw [CouponTable.size, width]
    exact Nat.le_trans (Nat.mul_le_mul_left 4 counted) fits
  · rw [width]
    exact Nat.le_succ_of_le least
  · rw [width, Nat.add_sub_cancel]
    exact needed

theorem insert?_spec (filling : e.Filling p count) (few : count < p.size) (inside : slot < p.size)
    (value : Nat) (free : e.contains slot = false) :
    e.insert? slot value = some (e.insert slot value) ∧ (e.insert slot value).Filling p (count + 1) := by
  obtain ⟨tabled, rfl, bound, load, least, needed⟩ := id filling
  have searchable := filling.searchable (Nat.le_of_lt few)
  have size := searchable.size_le
  have fine := e.precision.size_le
  have placed := place?_eq searchable inside (by omega) value
  have precision := precision_place e slot value
  have lgSize := lgSize_place e slot value
  have counted : (e.place slot value).count ≤ count + 1 :=
    Nat.le_trans (count_place_le e slot value) (Nat.succ_le_succ bound)
  rw [insert?, placed, Option.bind_eq_bind, Option.bind_some, insert, free, Bool.not_false, Bool.true_and,
    if_neg Bool.false_ne_true]
  dsimp only
  split_ifs with crowded
  · rw [← precision] at few least ⊢
    -- The binding that overloads a table is one too many for it. With four entries or more, twice the table
    -- is large enough for that one as well, so growing does not start over.
    have four : 4 ≤ e.table.size :=
      Nat.pow_le_pow_right Nat.two_pos (Nat.le_trans (two_le_lgMinSize _) (precision ▸ least))
    have light : 4 * e.count ≤ 3 * e.table.size := CouponTable.load_iff.mp load
    have width : (e.place slot value).table.size = e.table.size := congrArg (2 ^ ·) lgSize
    have one := Nat.mul_le_mul_left 4 (count_place_le e slot value)
    refine grown?_spec (tabled.place slot value) counted few (by rwa [lgSize]) crowded ?_
    rw [width]
    omega
  · refine ⟨rfl, tabled.place slot value, precision, counted, by simpa using crowded, by rwa [lgSize], ?_⟩
    rw [lgSize]
    refine needed.imp_right (fun crowded => ?_)
    rw [CouponTable.overloads, decide_eq_true_eq] at crowded ⊢
    omega

/-- Adopts a table read from elsewhere. A full table is refused before it is searched. -/
def adopt? (p : Precision) (table : CouponTable) : Option (Option Exceptions) := do
  let e : Exceptions := ⟨p, table⟩
  let size ← Word.shl 32 1 table.lgSize
  if table.count = size then return none
  let reachable ← (← e.bindings?).allM fun (slot, value) => return decide ((← e.value? slot) = some value)
  return if reachable then some e else none

section

variable {lgSize : Nat} {entries : List Coupon}

theorem adopt?_eq (small : lgSize ≤ 22) (sized : entries.length = 2 ^ lgSize) :
    adopt? p (.ofEntries lgSize entries.toArray) = some (ofTable? p (.ofEntries lgSize entries.toArray)) := by
  let e : Exceptions := ⟨p, .ofEntries lgSize entries.toArray⟩
  have size : Word.shl 32 1 e.table.lgSize = some e.table.size :=
    Word.shl_one (Nat.lt_of_le_of_lt small (by decide))
  rw [adopt?, ofTable?, size, Option.bind_eq_bind, Option.bind_some]
  dsimp only
  by_cases full : e.table.count = e.table.size
  · rw [if_pos full, if_pos full]
    rfl
  · have reached : e.bindings.allM (fun (slot, value) => return decide ((← e.value? slot) = some value)) =
        some (e.bindings.all fun (slot, value) => e.get? slot = some value) := by
      refine allM_of_forall (fun binding member => ?_)
      dsimp only
      rw [value?_eq (CouponTable.searchable_ofEntries small sized full) (slot_lt_of_mem e member)]
      rfl
    rw [if_neg full, if_neg full, bindings?_eq, Option.bind_eq_bind, Option.bind_some, reached]
    rfl

theorem searchable_of_ofTable? (small : lgSize ≤ 22) (sized : entries.length = 2 ^ lgSize)
    (adopted : ofTable? p (.ofEntries lgSize entries.toArray) = some e) :
    e.precision = p ∧ e.table.Searchable := by
  unfold ofTable? at adopted
  dsimp only at adopted
  split_ifs at adopted with full
  cases adopted
  exact ⟨rfl, CouponTable.searchable_ofEntries small sized full⟩

end

end Exceptions

end DistinctCount
