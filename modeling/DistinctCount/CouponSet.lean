import DistinctCount.CouponTable

/-! The second representation of a sketch: a hash set of coupons. A coupon is already the outcome of a
hash, so its slot serves as its key. -/

namespace DistinctCount

structure CouponSet where
  table : CouponTable
deriving DecidableEq

namespace CouponSet

def lgMinSize : Nat := 5

def empty (lgSize : Nat) : CouponSet := ⟨.empty lgSize⟩

def search (s : CouponSet) (c : Coupon) : Probe :=
  s.table.search c.slot (· = c)

def count (s : CouponSet) : Nat := s.table.count

/-- The members in table order. -/
def coupons (s : CouponSet) : List Coupon := s.table.occupied

def contains (s : CouponSet) (c : Coupon) : Bool :=
  match s.search c with
  | .found _ => true
  | _ => false

def insert (s : CouponSet) (c : Coupon) : CouponSet :=
  match s.search c with
  | .vacant index => ⟨s.table.fill index c⟩
  | _ => s

def isOverloaded (s : CouponSet) : Bool := s.table.isOverloaded

def insertAll (s : CouponSet) (coupons : List Coupon) : CouponSet :=
  coupons.foldl insert s

/-- The same members in a table of twice the size. -/
def grown (s : CouponSet) : CouponSet :=
  (empty (s.table.lgSize + 1)).insertAll s.coupons

/-- The members in ascending order. -/
def sorted (s : CouponSet) : List Coupon :=
  s.coupons.mergeSort (fun a b => a.word ≤ b.word)

/-- The base-two logarithm of the smallest table that holds `count` coupons without being overloaded:
the least exponent for which three quarters of the power reach `count`. -/
def lgSizeFor (count : Nat) : Nat :=
  max lgMinSize (((4 * count - 1) / 3).log2 + 1)

theorem overloads_lgSizeFor (count : Nat) : CouponTable.overloads count (lgSizeFor count) = false := by
  have below := Nat.lt_log2_self (n := (4 * count - 1) / 3)
  have grows : 2 ^ (((4 * count - 1) / 3).log2 + 1) ≤ 2 ^ lgSizeFor count :=
    Nat.pow_le_pow_right Nat.two_pos (Nat.le_max_right ..)
  simp only [CouponTable.overloads, decide_eq_false_iff_not]
  omega

end CouponSet

end DistinctCount
