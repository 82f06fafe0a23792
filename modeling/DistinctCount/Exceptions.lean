import DistinctCount.CouponTable
import DistinctCount.Precision

namespace DistinctCount

/-- A table of coupons in which the slot alone is the key. -/
structure Exceptions where
  precision : Precision
  table : CouponTable
deriving DecidableEq

namespace Exceptions

/-- The base-two logarithm of the first table of a sketch: about one entry for 200 registers. -/
def lgMinSize (p : Precision) : Nat :=
  if p.lg ≤ 6 then 2
  else if p.lg ≤ 9 then 3
  else if p.lg ≤ 11 then 4
  else if p.lg ≤ 13 then 5
  else p.lg - 8

/-- The base-two logarithm of the largest table: even with one entry for each register, twice as many
entries are not overloaded. -/
def lgMaxSize (p : Precision) : Nat := p.lg + 1

def empty (p : Precision) : Exceptions := ⟨p, .empty (lgMinSize p)⟩

def count (e : Exceptions) : Nat := e.table.count

/-- Probes for a register. Entries are told apart by the bits of their slot that name a register. -/
def search (e : Exceptions) (slot : Nat) : Probe :=
  e.table.search slot fun entry => entry.register e.precision.size = slot

def get? (e : Exceptions) (slot : Nat) : Option Nat :=
  match e.search slot with
  | .found index => some (e.table.entry index).value
  | _ => none

def contains (e : Exceptions) (slot : Nat) : Bool := (e.get? slot).isSome

/-- Registers with their values, in table order. -/
def bindings (e : Exceptions) : List (Nat × Nat) :=
  e.table.occupied.map fun entry => (entry.register e.precision.size, entry.value)

/-- Binds a register that is unbound, in the table as it is. -/
def place (e : Exceptions) (slot value : Nat) : Exceptions :=
  match e.search slot with
  | .vacant index => { e with table := e.table.fill index (Coupon.pack slot value) }
  | _ => e

def grown (e : Exceptions) : Exceptions :=
  e.bindings.foldl (fun grown (slot, value) => grown.place slot value)
    ⟨e.precision, .empty (e.table.lgSize + 1)⟩

/-- Binds a register that is unbound, and doubles the table once it is overloaded. -/
def insert (e : Exceptions) (slot value : Nat) : Exceptions :=
  if e.contains slot then e
  else
    let e := e.place slot value
    if e.table.isOverloaded then e.grown else e

def replace (e : Exceptions) (slot value : Nat) : Exceptions :=
  match e.search slot with
  | .found index => { e with table := e.table.replace index (Coupon.pack slot value) }
  | _ => e

/-- Adopts a table read from elsewhere, unless it is full or probing does not lead back to each binding. -/
def ofTable? (p : Precision) (table : CouponTable) : Option Exceptions :=
  let e : Exceptions := ⟨p, table⟩
  if table.count = table.size then none
  else if e.bindings.all fun (slot, value) => e.get? slot = some value then some e
  else none

end Exceptions

end DistinctCount
