namespace DistinctCount

/-- How many bits a register takes once a sketch keeps registers. -/
inductive Width where
  | four
  | six
  | eight
deriving DecidableEq

namespace Width

def bits : Width → Nat
  | .four => 4
  | .six => 6
  | .eight => 8

/-- The two-bit code of a width in an image. -/
def code : Width → Nat
  | .four => 0
  | .six => 1
  | .eight => 2

def ofCode? : Nat → Option Width
  | 0 => some .four
  | 1 => some .six
  | 2 => some .eight
  | _ => none

def label : Width → String
  | .four => "Hll4"
  | .six => "Hll6"
  | .eight => "Hll8"

/-- Widths are ordered by their bits, so that the larger of two loses nothing of either. -/
instance : LT Width := ⟨fun a b => a.bits < b.bits⟩

instance : DecidableLT Width := fun a b => inferInstanceAs (Decidable (a.bits < b.bits))

instance : Max Width := ⟨fun a b => if a < b then b else a⟩

theorem ofCode?_code (width : Width) : ofCode? width.code = some width := by
  cases width <;> rfl

end Width

/-- The representation that a sketch uses at present. -/
inductive Mode where
  | list
  | set
  | registers
deriving DecidableEq

namespace Mode

/-- The two-bit code of a mode in an image. -/
def code : Mode → Nat
  | .list => 0
  | .set => 1
  | .registers => 2

def ofCode? : Nat → Option Mode
  | 0 => some .list
  | 1 => some .set
  | 2 => some .registers
  | _ => none

def label : Mode → String
  | .list => "List"
  | .set => "Set"
  | .registers => "Hll"

theorem ofCode?_code (mode : Mode) : ofCode? mode.code = some mode := by
  cases mode <;> rfl

end Mode

/-- Which estimate a sketch reports: the coupon count read through the collision curve, the historic
inverse probability of its changes, or the composite of register sums and zero registers. -/
inductive EstimatorKind where
  | coupon
  | historic
  | composite
deriving DecidableEq

def EstimatorKind.label : EstimatorKind → String
  | .coupon => "Coupon"
  | .historic => "Hip"
  | .composite => "Composite"

/-- The confidence of a bound, in standard deviations. -/
inductive Deviation where
  | one
  | two
  | three
deriving DecidableEq

namespace Deviation

def toNat : Deviation → Nat
  | .one => 1
  | .two => 2
  | .three => 3

def ofNat? : Nat → Option Deviation
  | 1 => some .one
  | 2 => some .two
  | 3 => some .three
  | _ => none

def label : Deviation → String
  | .one => "One"
  | .two => "Two"
  | .three => "Three"

theorem ofNat?_toNat (deviation : Deviation) : ofNat? deviation.toNat = some deviation := by
  cases deviation <;> rfl

end Deviation

end DistinctCount
