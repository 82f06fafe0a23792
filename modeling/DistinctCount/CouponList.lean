import DistinctCount.Coupon

namespace DistinctCount

/-- Distinct coupons in order of arrival. -/
structure CouponList where
  coupons : List Coupon
deriving DecidableEq

namespace CouponList

def lgCapacity : Nat := 3

/-- A list that holds this many coupons is given up for the next representation. -/
def capacity : Nat := 2 ^ lgCapacity

def empty : CouponList := ⟨[]⟩

def count (l : CouponList) : Nat := l.coupons.length

def contains (l : CouponList) (c : Coupon) : Bool := l.coupons.contains c

def insert (l : CouponList) (c : Coupon) : CouponList :=
  if l.contains c then l else ⟨l.coupons ++ [c]⟩

def isFull (l : CouponList) : Bool := capacity ≤ l.count

theorem mem_insert (l : CouponList) (c d : Coupon) :
    d ∈ (l.insert c).coupons ↔ d = c ∨ d ∈ l.coupons := by
  unfold insert contains
  split <;> rename_i present
  · have : c ∈ l.coupons := by simpa using present
    constructor
    · exact Or.inr
    · rintro (rfl | member) <;> assumption
  · simp [or_comm]

theorem nodup_insert (l : CouponList) (c : Coupon) (distinct : l.coupons.Nodup) :
    (l.insert c).coupons.Nodup := by
  unfold insert contains
  split <;> rename_i absent
  · exact distinct
  · have : c ∉ l.coupons := by simpa using absent
    rw [List.nodup_append]
    refine ⟨distinct, by simp, fun d member e single => ?_⟩
    rw [List.mem_singleton.mp single]
    exact fun same => this (same ▸ member)

end CouponList

end DistinctCount
