import DistinctCount.CouponList
import DistinctCount.CouponSet
import DistinctCount.Estimate.CouponCurve
import DistinctCount.RegisterArray

namespace DistinctCount

/-- What a sketch remembers. While it remembers coupons, the width is that of the registers to come. -/
inductive Store (α : Type) where
  | list (coupons : CouponList) (width : Width)
  | set (coupons : CouponSet) (width : Width)
  | registers (array : RegisterArray α)
deriving DecidableEq

/-- Coupons in the order in which they are kept, or registers. -/
inductive Content (α : Type) where
  | coupons (coupons : List Coupon)
  | registers (array : RegisterArray α)

namespace Store

section

variable {α : Type} [Scalar α]

def empty (width : Width) : Store α := .list .empty width

def mode : Store α → Mode
  | .list .. => .list
  | .set .. => .set
  | .registers _ => .registers

def width : Store α → Width
  | .list _ width => width
  | .set _ width => width
  | .registers array => array.width

/-- What is in a store, whatever its tables look like. -/
def content : Store α → Content α
  | .list coupons _ => .coupons coupons.coupons
  | .set coupons _ => .coupons coupons.coupons
  | .registers array => .registers array

/-- The number of coupons of a store that still has them. -/
def couponCount? : Store α → Option Nat
  | .list coupons _ => some coupons.count
  | .set coupons _ => some coupons.count
  | .registers _ => none

def isEmpty (s : Store α) : Bool := s.couponCount? = some 0

/-- From this precision on a full list becomes a set. Registers of coarser sketches are no larger. -/
def lgMinForSet : Nat := 8

/-- By how much the logarithm of a set's size must stay below the precision. -/
def lgSetMargin : Nat := 3

/-- The base-two logarithm of the largest set of a sketch. -/
def lgMaxSetSize (p : Precision) : Nat := p.lg - lgSetMargin

/-- Registers that saw the coupons, in order. Their history starts at the estimate of the coupons. -/
def promoted (p : Precision) (width : Width) (coupons : List Coupon) (count : Nat) : RegisterArray α :=
  let array := coupons.foldl (fun array c => array.update c false) (RegisterArray.zeros p width)
  { array with historic := CouponCurve.estimate count }

/-- Presents a coupon to a list, and gives up the list once it is full. -/
def updateList (p : Precision) (coupons : CouponList) (width : Width) (c : Coupon) : Store α :=
  let coupons := coupons.insert c
  if coupons.isFull then
    if p.lg < lgMinForSet then .registers (promoted p width coupons.coupons coupons.count)
    else .set ((CouponSet.empty CouponSet.lgMinSize).insertAll coupons.coupons) width
  else .list coupons width

/-- Presents a coupon to a set. An overloaded set is doubled, or given up if it is large enough. -/
def updateSet (p : Precision) (coupons : CouponSet) (width : Width) (c : Coupon) : Store α :=
  if coupons.contains c then .set coupons width
  else
    let coupons := coupons.insert c
    if coupons.isOverloaded then
      if p.lg ≤ coupons.table.lgSize + lgSetMargin then
        .registers (promoted p width coupons.coupons coupons.count)
      else .set coupons.grown width
    else .set coupons width

def update (s : Store α) (p : Precision) (c : Coupon) (inOrder : Bool) : Store α :=
  match s with
  | .list coupons width => updateList p coupons width c
  | .set coupons width => updateSet p coupons width c
  | .registers array => .registers (array.update c inOrder)

def copyAs (s : Store α) (width : Width) : Store α :=
  match s with
  | .list coupons _ => .list coupons width
  | .set coupons _ => .set coupons width
  | .registers array => .registers (array.copyAs width)

def settle : Store α → Store α
  | .registers array => .registers array.settle
  | s => s

def primed : Store α → Store α
  | .registers array => .registers array.primed
  | s => s

end

variable {α : Type} [Analytic α]

def estimate (s : Store α) (outOfOrder : Bool) : α :=
  match s with
  | .list coupons _ => CouponCurve.estimate coupons.count
  | .set coupons _ => CouponCurve.estimate coupons.count
  | .registers array => array.estimate outOfOrder

def compositeEstimate : Store α → α
  | .list coupons _ => CouponCurve.estimate coupons.count
  | .set coupons _ => CouponCurve.estimate coupons.count
  | .registers array => array.compositeEstimate

def lowerBound (s : Store α) (outOfOrder : Bool) (deviation : Deviation) : α :=
  match s with
  | .list coupons _ => CouponCurve.lowerBound coupons.count deviation
  | .set coupons _ => CouponCurve.lowerBound coupons.count deviation
  | .registers array => array.lowerBound outOfOrder deviation

def upperBound (s : Store α) (outOfOrder : Bool) (deviation : Deviation) : α :=
  match s with
  | .list coupons _ => CouponCurve.upperBound coupons.count deviation
  | .set coupons _ => CouponCurve.upperBound coupons.count deviation
  | .registers array => array.upperBound outOfOrder deviation

end Store

end DistinctCount
