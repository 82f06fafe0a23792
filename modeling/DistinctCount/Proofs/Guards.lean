import DistinctCount.Proofs.Membership
import DistinctCount.Proofs.Promotion
import Mathlib.Data.Nat.PSub

/-! Steps that stop where a machine stops: at an index outside of an array, at a number that does not fit
into its word, and at a search that comes back to where it began. A table with a free entry is searched
without a stop. -/

namespace DistinctCount

namespace Word

/-- The bits of a size or an index. An address has no fewer. -/
def index : Nat := 32

def add (bits a b : Nat) : Option Nat := if a + b < 2 ^ bits then some (a + b) else none

def mul (bits a b : Nat) : Option Nat := if a * b < 2 ^ bits then some (a * b) else none

/-- A shift is by less than the width of the word. What leaves the word at the top is lost. -/
def shl (bits a count : Nat) : Option Nat := if count < bits then some ((a <<< count) % 2 ^ bits) else none

def shr (bits a count : Nat) : Option Nat := if count < bits then some (a >>> count) else none

variable {bits a b count : Nat}

theorem add_eq (fits : a + b < 2 ^ bits) : add bits a b = some (a + b) := if_pos fits

theorem mul_eq (fits : a * b < 2 ^ bits) : mul bits a b = some (a * b) := if_pos fits

theorem shl_eq (below : count < bits) (fits : a <<< count < 2 ^ bits) : shl bits a count = some (a <<< count) := by
  rw [shl, if_pos below, Nat.mod_eq_of_lt fits]

theorem shl_one (below : count < bits) : shl bits 1 count = some (2 ^ count) := by
  have fits : 2 ^ count < 2 ^ bits := Nat.pow_lt_pow_right (by decide) below
  rw [← Nat.one_shiftLeft] at fits ⊢
  exact shl_eq below fits

theorem shl_lg (p : Precision) : shl 32 1 p.lg = some p.size :=
  shl_one (Nat.lt_of_le_of_lt p.le_twentyOne (by decide))

theorem shr_eq (below : count < bits) : shr bits a count = some (a / 2 ^ count) := by
  rw [shr, if_pos below, Nat.shiftRight_eq_div_pow]

theorem or_one (a : Nat) : a ||| 1 = 2 * (a / 2) + 1 := by
  have half : (a ||| 1) / 2 = a / 2 := by
    rw [Nat.or_div_two]
    simp
  have odd : (a ||| 1) % 2 = 1 := by simp
  omega

end Word

section

variable {β γ : Type} {items : List β} {f : β → Option γ} {g : β → γ} {p : β → Option Bool} {q : β → Bool}

/-- The items from a position on. There is none behind the end. -/
def sliceFrom? (items : List β) (start : Nat) : Option (List β) :=
  if start ≤ items.length then some (items.drop start) else none

/-- The items before a position, which is not behind the end. -/
def sliceTo? (items : List β) (stop : Nat) : Option (List β) :=
  if stop ≤ items.length then some (items.take stop) else none

theorem mapM_of_forall (each : ∀ x ∈ items, f x = some (g x)) : items.mapM f = some (items.map g) := by
  induction items with
  | nil => rfl
  | cons x rest ih =>
    have others := ih (fun y member => each y (List.mem_cons_of_mem x member))
    rw [List.mapM_cons, each x List.mem_cons_self, others]
    rfl

theorem allM_of_forall (each : ∀ x ∈ items, p x = some (q x)) : items.allM p = some (items.all q) := by
  induction items with
  | nil => rfl
  | cons x rest ih =>
    have others := ih (fun y member => each y (List.mem_cons_of_mem x member))
    rw [List.allM, each x List.mem_cons_self, List.all_cons]
    cases q x with
    | true => exact others
    | false => rfl

theorem findM?_of_forall (each : ∀ x ∈ items, p x = some (q x)) : items.findM? p = some (items.find? q) := by
  induction items with
  | nil => rfl
  | cons x rest ih =>
    have others := ih (fun y member => each y (List.mem_cons_of_mem x member))
    rw [List.findM?, each x List.mem_cons_self, List.find?_cons]
    cases q x with
    | true => rfl
    | false => exact others

end

namespace CouponTable

variable {t : CouponTable} {sought : Coupon → Bool} {home key index steps start n : Nat}

/-- Visits entries a stride apart. The way back to the first one is a stop, and so is a way without end. -/
def probe? (t : CouponTable) (sought : Coupon → Bool) (stride mask home : Nat) :
    (budget index : Nat) → Option Probe
  | 0, _ => none
  | budget + 1, index => do
    let entry ← t.entries[index]?
    if entry = Coupon.empty then return .vacant index
    else if sought entry then return .found index
    else
      let sum ← Word.add 32 index stride
      if sum &&& mask = home then none else probe? t sought stride mask home budget (sum &&& mask)

/-- Probes for a key from the entry that the low bits of `home` name. -/
def search? (t : CouponTable) (home key : Nat) (sought : Coupon → Bool) : Option Probe := do
  let size ← Word.shl 32 1 t.lgSize
  let mask ← Nat.psub size 1
  let upper ← Word.shr 32 key t.lgSize
  t.probe? sought (upper ||| 1) mask (home &&& mask) t.size (home &&& mask)

/-- A table in which every search ends, no larger than the exceptions of the finest sketch ask for. -/
structure Searchable (t : CouponTable) : Prop where
  sized : t.entries.size = t.size
  room : t.occupied.length < t.size
  small : t.lgSize ≤ 22

theorem Searchable.size_le (searchable : t.Searchable) : t.size ≤ 2 ^ 22 :=
  Nat.pow_le_pow_right Nat.two_pos searchable.small

theorem getElem?_entries (sized : t.entries.size = t.size) (inside : index < t.size) :
    t.entries[index]? = some (t.entry index) := by
  rw [Array.getElem?_eq_getElem (by rwa [sized])]
  simp [entry, sized, inside]

/-- A search ends before it is back at its home entry, since no entry is visited twice. -/
private theorem probe?_of_stop (searchable : t.Searchable) {stride : Nat} (short : stride ≤ 2 ^ 26)
    (enough : n < steps) (before : ∀ m < n, t.stops sought ((start + m * stride) % t.size) = false)
    (stop : t.stops sought ((start + n * stride) % t.size) = true)
    (apart : ∀ m < n, (start + (m + 1) * stride) % t.size ≠ home) :
    t.probe? sought stride (t.size - 1) home steps (start % t.size) =
      some (t.answer ((start + n * stride) % t.size)) := by
  have here := getElem?_entries searchable.sized (Nat.mod_lt start t.size_pos)
  -- By induction on the visits before the stop: behind the first of them, the same search starts one stride
  -- further, and it still ends before it is back at `home`.
  induction n generalizing steps start with
  | zero =>
    obtain ⟨steps, rfl⟩ : ∃ k, steps = k + 1 := ⟨steps - 1, by omega⟩
    simp only [Nat.zero_mul, Nat.add_zero] at stop ⊢
    simp only [stops, Bool.or_eq_true, decide_eq_true_eq] at stop
    rw [probe?, here, Option.bind_eq_bind, Option.bind_some, answer]
    by_cases free : t.entry (start % t.size) = Coupon.empty
    · rw [if_pos free, if_pos free]
      rfl
    · rw [if_neg free, if_neg free, if_pos (stop.resolve_left free)]
      rfl
  | succ n ih =>
    obtain ⟨steps, rfl⟩ : ∃ k, steps = k + 1 := ⟨steps - 1, by omega⟩
    have passed := before 0 (Nat.zero_lt_succ n)
    simp only [Nat.zero_mul, Nat.add_zero, stops, Bool.or_eq_false_iff, decide_eq_false_iff_not] at passed
    have shift (m : Nat) : start + (m + 1) * stride = start + stride + m * stride := by
      rw [Nat.succ_mul]
      omega
    have size := searchable.size_le
    have below := Nat.mod_lt start t.size_pos
    have sum : Word.add 32 (start % t.size) stride = some (start % t.size + stride) :=
      Word.add_eq (by omega)
    have next : (start % t.size + stride) &&& (t.size - 1) = (start + stride) % t.size := by
      rw [CouponTable.size, Nat.and_two_pow_sub_one_eq_mod, Nat.mod_add_mod]
    have away : (start + stride) % t.size ≠ home := by
      have first := apart 0 (Nat.zero_lt_succ n)
      rwa [shift, Nat.zero_mul, Nat.add_zero] at first
    rw [probe?, here, Option.bind_eq_bind, Option.bind_some, if_neg passed.1,
      if_neg (Bool.eq_false_iff.mp passed.2), sum, Option.bind_eq_bind, Option.bind_some, next, if_neg away,
      shift]
    refine ih (by omega) (fun m less => ?_) ?_ (fun m less => ?_) ?_
    · rw [← shift]
      exact before (m + 1) (Nat.succ_lt_succ less)
    · rw [← shift]
      exact stop
    · rw [← shift]
      exact apart (m + 1) (Nat.succ_lt_succ less)
    · exact getElem?_entries searchable.sized (Nat.mod_lt _ t.size_pos)

theorem Keyed.searchable {κ : Type} [DecidableEq κ] {K : Keying κ} (keyed : t.Keyed K) (room : t.count < t.size)
    (small : t.lgSize ≤ 22) : t.Searchable :=
  ⟨keyed.size_entries, by rwa [← keyed.count_eq], small⟩

section

variable {lgSize : Nat} {entries : List Coupon}

theorem count_ofEntries_le (sized : entries.length = 2 ^ lgSize) :
    (ofEntries lgSize entries.toArray).count ≤ 2 ^ lgSize :=
  Nat.le_trans List.countP_le_length (Nat.le_of_eq sized)

theorem searchable_ofEntries (small : lgSize ≤ 22) (sized : entries.length = 2 ^ lgSize)
    (room : (ofEntries lgSize entries.toArray).count ≠ 2 ^ lgSize) :
    (ofEntries lgSize entries.toArray).Searchable := by
  have counted : (ofEntries lgSize entries.toArray).occupied.length = (ofEntries lgSize entries.toArray).count :=
    List.countP_eq_length_filter.symm
  exact ⟨sized, counted.trans_lt (Nat.lt_of_le_of_ne (count_ofEntries_le sized) room), small⟩

end

theorem search_ne_exhausted (searchable : t.Searchable) : t.search key sought ≠ .exhausted := by
  obtain ⟨index, stopped⟩ := exists_stopsAt searchable.sized searchable.room key sought
  rw [search_of_stopsAt stopped, answer]
  split_ifs <;> simp

theorem search?_eq (searchable : t.Searchable) (sought : Coupon → Bool) (same : home % t.size = key % t.size)
    (bound : key < Coupon.slots) : t.search? home key sought = some (t.search key sought) := by
  have small := searchable.small
  have size : Word.shl 32 1 t.lgSize = some t.size := Word.shl_one (by omega)
  have mask : Nat.psub t.size 1 = some (t.size - 1) := Nat.psub_eq_sub t.size_pos
  have upper : Word.shr 32 key t.lgSize = some (key / 2 ^ t.lgSize) := Word.shr_eq (by omega)
  have odd : key / 2 ^ t.lgSize ||| 1 = stride t.lgSize key := by
    rw [Word.or_one, stride, Nat.pow_succ, Nat.div_div_eq_div_mul]
  have first : home &&& (t.size - 1) = key % t.size := by
    rw [CouponTable.size, Nat.and_two_pow_sub_one_eq_mod]
    exact same
  have short : stride t.lgSize key ≤ 2 ^ 26 := by
    have less : key / 2 ^ (t.lgSize + 1) ≤ key / 2 :=
      Nat.div_le_div_left (Nat.le_self_pow (Nat.succ_ne_zero _) 2) Nat.two_pos
    have limit : Coupon.slots = 2 ^ 26 := rfl
    rw [stride]
    omega
  obtain ⟨index, stopped⟩ := exists_stopsAt searchable.sized searchable.room key sought
  rw [search_of_stopsAt stopped]
  obtain ⟨⟨n, enough, rfl, before⟩, stop⟩ := stopped
  rw [search?, size, Option.bind_eq_bind, Option.bind_some, mask, Option.bind_some, upper, Option.bind_some,
    odd, first]
  refine probe?_of_stop searchable short enough before stop (fun m less back => ?_)
  have zero : t.path key 0 = key % t.size := by rw [path, Nat.zero_mul, Nat.add_zero]
  have twice := path_injective t key (Nat.lt_of_le_of_lt less enough) t.size_pos (back.trans zero.symm)
  exact Nat.succ_ne_zero m twice

-- A full table lets a search for another key come back to where it began.
example : (⟨0, #[⟨5⟩], 1⟩ : CouponTable).search? 6 6 (fun entry => entry.slot = 6) = none := by decide

end CouponTable

namespace CouponSet

variable {s : CouponSet} {c : Coupon} {count lgSize budget : Nat}

def search? (s : CouponSet) (c : Coupon) : Option Probe :=
  s.table.search? c.word.toNat c.slot (· = c)

def contains? (s : CouponSet) (c : Coupon) : Option Bool := do
  match ← s.search? c with
  | .found _ => return true
  | _ => return false

def insert? (s : CouponSet) (c : Coupon) : Option CouponSet := do
  match ← s.search? c with
  | .vacant index =>
    let _entry ← s.table.entries[index]?
    let _count ← Word.add 32 s.count 1
    return ⟨s.table.fill index c⟩
  | _ => return s

def isOverloaded? (s : CouponSet) : Option Bool := do
  let load ← Word.mul 32 4 s.count
  let limit ← Word.mul 32 3 s.table.entries.size
  return decide (limit < load)

/-- Doubles a table until it holds `count` coupons without being overloaded. Going on past the budget is a
stop. -/
def lgSizeFrom? (count : Nat) : (budget lgSize : Nat) → Option Nat
  | 0, _ => none
  | budget + 1, lgSize => do
    let load ← Word.mul 64 4 count
    let limit ← Word.mul 64 3 (← Word.shl 64 1 lgSize)
    if limit < load then lgSizeFrom? count budget (← Word.add 8 lgSize 1) else return lgSize

theorem search?_eq (searchable : s.table.Searchable) (c : Coupon) : s.search? c = some (s.search c) := by
  refine CouponTable.search?_eq searchable _ ?_ c.slot_lt_slots
  have divides : s.table.size ∣ Coupon.slots := Nat.pow_dvd_pow 2 (Nat.le_trans searchable.small (by decide))
  exact (Nat.mod_mod_of_dvd _ divides).symm

theorem contains?_eq (searchable : s.table.Searchable) (c : Coupon) : s.contains? c = some (s.contains c) := by
  rw [contains?, search?_eq searchable, Option.bind_eq_bind, Option.bind_some, contains]
  cases s.search c <;> rfl

theorem insert?_eq (searchable : s.table.Searchable) (few : s.count < 2 ^ 22) (c : Coupon) :
    s.insert? c = some (s.insert c) := by
  have count : Word.add 32 s.count 1 = some (s.count + 1) := Word.add_eq (by omega)
  rw [insert?, search?_eq searchable, Option.bind_eq_bind, Option.bind_some, insert]
  cases result : s.search c with
  | vacant index =>
    have below := (CouponTable.search_vacant_iff.mp result).1.lt_size
    simp only [CouponTable.getElem?_entries searchable.sized below, count, Option.bind_eq_bind,
      Option.bind_some]
    rfl
  | found | exhausted => rfl

theorem isOverloaded?_eq (sized : s.table.entries.size = s.table.size) (small : s.table.lgSize ≤ 22)
    (few : s.count ≤ s.table.size) : s.isOverloaded? = some s.isOverloaded := by
  have most : s.table.size ≤ 2 ^ 22 := Nat.pow_le_pow_right Nat.two_pos small
  have load : Word.mul 32 4 s.count = some (4 * s.count) := Word.mul_eq (by omega)
  have limit : Word.mul 32 3 s.table.size = some (3 * s.table.size) := Word.mul_eq (by omega)
  rw [isOverloaded?, sized, load, limit]
  rfl

theorem lgSizeFor_le (few : count < 2 ^ 32) : lgSizeFor count ≤ 33 :=
  lgSizeFor_le_iff.mpr ⟨by decide, CouponTable.overloads_eq_false_iff.mpr (by omega)⟩

theorem lgSizeFrom?_eq (few : count < 2 ^ 32) (least : lgMinSize ≤ lgSize) (below : lgSize ≤ lgSizeFor count)
    (enough : lgSizeFor count < lgSize + budget) : lgSizeFrom? count budget lgSize = some (lgSizeFor count) := by
  have most := lgSizeFor_le few
  induction budget generalizing lgSize with
  | zero => omega
  | succ budget ih =>
    have power : 2 ^ lgSize ≤ 2 ^ 33 := Nat.pow_le_pow_right Nat.two_pos (Nat.le_trans below most)
    have load : Word.mul 64 4 count = some (4 * count) := Word.mul_eq (by omega)
    have size : Word.shl 64 1 lgSize = some (2 ^ lgSize) := Word.shl_one (by omega)
    have limit : Word.mul 64 3 (2 ^ lgSize) = some (3 * 2 ^ lgSize) := Word.mul_eq (by omega)
    have larger : Word.add 8 lgSize 1 = some (lgSize + 1) := Word.add_eq (by omega)
    simp only [lgSizeFrom?, load, size, limit, larger, Option.bind_eq_bind, Option.bind_some]
    split_ifs with crowded
    · refine ih (Nat.le_succ_of_le least) (Nat.lt_of_le_of_ne below (fun same => ?_)) (by omega)
      have light := (lgSizeFor_le_iff.mp (Nat.le_of_eq same.symm)).2
      rw [CouponTable.overloads_eq_false_iff] at light
      omega
    · have enough : lgSizeFor count ≤ lgSize :=
        lgSizeFor_le_iff.mpr ⟨least, CouponTable.overloads_eq_false_iff.mpr (Nat.le_of_not_lt crowded)⟩
      exact congrArg some (Nat.le_antisymm below enough)

end CouponSet

end DistinctCount
