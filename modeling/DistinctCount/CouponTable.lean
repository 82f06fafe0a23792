import DistinctCount.Coupon

/-! Open addressing: tables of coupons whose size is a power of two, probed with an odd stride. -/

namespace DistinctCount

/-- What probing meets first: an entry that is sought, a free entry, or neither after as many steps as
the table has entries. -/
inductive Probe where
  | found (index : Nat)
  | vacant (index : Nat)
  | exhausted
deriving DecidableEq

/-- Entries, the base-two logarithm of their number, and how many of them are taken. -/
structure CouponTable where
  lgSize : Nat
  entries : Array Coupon
  count : Nat
deriving DecidableEq

namespace CouponTable

def empty (lgSize : Nat) : CouponTable :=
  ⟨lgSize, Array.replicate (2 ^ lgSize) Coupon.empty, 0⟩

/-- Adopts `2 ^ lgSize` entries and counts those that are taken. -/
def ofEntries (lgSize : Nat) (entries : Array Coupon) : CouponTable :=
  ⟨lgSize, entries, entries.toList.countP (· ≠ Coupon.empty)⟩

def size (t : CouponTable) : Nat := 2 ^ t.lgSize

/-- The taken entries in table order. -/
def occupied (t : CouponTable) : List Coupon :=
  t.entries.toList.filter (· ≠ Coupon.empty)

def entry (t : CouponTable) (index : Nat) : Coupon :=
  t.entries.getD index Coupon.empty

/-- Whether `count` entries are too many for a table of `2 ^ lgSize`: more than three quarters of it. -/
def overloads (count lgSize : Nat) : Bool := 3 * 2 ^ lgSize < 4 * count

def isOverloaded (t : CouponTable) : Bool := overloads t.count t.lgSize

/-- Visits entries from `index` on, a stride apart, for as many steps as told. -/
def probe (t : CouponTable) (sought : Coupon → Bool) (stride : Nat) :
    (steps index : Nat) → Probe
  | 0, _ => .exhausted
  | steps + 1, index =>
    if t.entry index = Coupon.empty then .vacant index
    else if sought (t.entry index) then .found index
    else probe t sought stride steps ((index + stride) % t.size)

/-- The odd stride of a key: the bits above those that pick its home entry, with the lowest one set. -/
def stride (lgSize key : Nat) : Nat := 2 * (key / 2 ^ (lgSize + 1)) + 1

/-- Probes for a key from its home entry. -/
def search (t : CouponTable) (key : Nat) (sought : Coupon → Bool) : Probe :=
  t.probe sought (stride t.lgSize key) t.size (key % t.size)

def replace (t : CouponTable) (index : Nat) (c : Coupon) : CouponTable :=
  { t with entries := t.entries.setIfInBounds index c }

def fill (t : CouponTable) (index : Nat) (c : Coupon) : CouponTable :=
  { t with entries := t.entries.setIfInBounds index c, count := t.count + 1 }

theorem size_empty (lgSize : Nat) : (empty lgSize).entries.size = 2 ^ lgSize := by
  simp [empty]

theorem occupied_empty (lgSize : Nat) : (empty lgSize).occupied = [] := by
  simp [occupied, empty]

theorem entry_fill (t : CouponTable) (index other : Nat) (c : Coupon)
    (inside : index < t.entries.size) :
    (t.fill index c).entry other = if other = index then c else t.entry other := by
  simp only [fill, entry, Array.getD_eq_getD_getElem?, Array.getElem?_setIfInBounds]
  split <;> rename_i same
  · subst same
    simp
  · simp [Ne.symm same]

theorem entry_replace (t : CouponTable) (index other : Nat) (c : Coupon)
    (inside : index < t.entries.size) :
    (t.replace index c).entry other = if other = index then c else t.entry other := by
  simp only [replace, entry, Array.getD_eq_getD_getElem?, Array.getElem?_setIfInBounds]
  split <;> rename_i same
  · subst same
    simp
  · simp [Ne.symm same]

theorem stride_odd (lgSize key : Nat) : stride lgSize key % 2 = 1 := by
  simp only [stride]
  omega

end CouponTable

end DistinctCount
