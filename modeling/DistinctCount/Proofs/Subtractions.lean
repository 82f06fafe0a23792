import DistinctCount.Proofs.Promotion
import Mathlib.Data.Nat.PSub

/-! Changes to registers that stop at a subtraction below zero. Those of sound registers never do: a value
is never below its base, and a register that leaves the base was counted there. -/

namespace DistinctCount

namespace Registers

variable {p : Precision} {base slot value : Nat} {r : Registers}

/-- A nibble is written by the distance of its value from the base. -/
def encode? (p : Precision) (base : Nat) (cells : Nibbles) (exceptions : Option Exceptions)
    (slot value : Nat) : Option Registers := do
  let distance ← Nat.psub value base
  if distance < token then return .four (cells.put slot distance) exceptions
  else return .four (cells.put slot token) (some ((exceptions.getD (.empty p)).insert slot value))

/-- The distance is asked for even where the value is kept among the exceptions. -/
def put? (r : Registers) (p : Precision) (base slot value : Nat) : Option Registers := do
  match r with
  | .four cells exceptions =>
    let _distance ← Nat.psub value base
    if cells.get slot = token then return .four cells (exceptions.map (·.replace slot value))
    else encode? p base cells exceptions slot value
  | .six cells => return .six (cells.put slot value)
  | .eight cells => return .eight (cells.put slot value)

def ofValues? (width : Width) (p : Precision) (base : Nat) (values : List Nat) : Option Registers :=
  values.zipIdx.foldlM (fun registers (value, slot) => registers.put? p base slot value)
    (zeros width p.size)

theorem encode?_eq {cells : Nibbles} {exceptions : Option Exceptions} (least : base ≤ value) :
    encode? p base cells exceptions slot value = some (encode p base cells exceptions slot value) := by
  rw [encode?, encode, Nat.psub_eq_sub least, Option.bind_eq_bind, Option.bind_some]
  split_ifs <;> rfl

theorem put?_eq (least : base ≤ value) : r.put? p base slot value = some (r.put p base slot value) := by
  cases r with
  | four cells exceptions =>
    simp only [put?, put, Nat.psub_eq_sub least, Option.bind_eq_bind, Option.bind_some]
    split_ifs
    · rfl
    · exact encode?_eq least
  | six | eight => rfl

theorem ofValues?_eq {width : Width} {values : List Nat} (least : ∀ value ∈ values, base ≤ value) :
    ofValues? width p base values = some (ofValues width p base values) := by
  have all : ∀ (start : Nat) (r : Registers),
      (values.zipIdx start).foldlM (fun registers (value, slot) => registers.put? p base slot value) r =
        some ((values.zipIdx start).foldl
          (fun registers (value, slot) => registers.put p base slot value) r) := by
    induction values with
    | nil => exact fun _ _ => rfl
    | cons value rest ih =>
      intro start r
      have first : r.put? p base start value = some (r.put p base start value) :=
        put?_eq (least value (by simp))
      simp only [List.zipIdx_cons, List.foldlM_cons, List.foldl_cons, first]
      exact ih (fun other member => least other (by simp [member])) (start + 1) _
  exact all 0 _

end Registers

/-- The base of a scan is subtracted from each value, and exceeds none. -/
theorem Tally.base_scan_le {α : Type} [Scalar α] (tracked : Bool) {values : List Nat} {value : Nat}
    (member : value ∈ values) : (scan tracked values : Tally α).base ≤ value := by
  cases tracked with
  | false => exact Nat.zero_le value
  | true =>
    obtain ⟨least, found⟩ := Option.isSome_iff_exists.mp
      (List.isSome_min?_of_ne_nil (List.ne_nil_of_mem member))
    have base : (scan true values : Tally α).base = least := by simp [scan, found]
    rw [base]
    exact (List.min?_eq_some_iff.mp found).2 value member

namespace RegisterArray

variable {α : Type} [Scalar α]

def ofValues? (p : Precision) (width : Width) (values : List Nat) (historic : α) :
    Option (RegisterArray α) := do
  let tally := Tally.scan (tracksBase width) values
  let registers ← Registers.ofValues? width p tally.base values
  return ⟨p, registers, tally, historic, .settled⟩

def copyAs? (a : RegisterArray α) (width : Width) : Option (RegisterArray α) :=
  if width = a.width ∧ !a.isPending then some a else ofValues? a.precision width a.values a.historic

def rebased? {α : Type} (a : RegisterArray α) : Option Registers :=
  match a.registers with
  | .four .. =>
    let values := a.values
    let least := values.min?.getD a.tally.base
    if least = a.tally.base then some a.registers else Registers.ofValues? .four a.precision least values
  | registers => some registers

def settle? (a : RegisterArray α) : Option (RegisterArray α) :=
  match a.upkeep with
  | .settled => some a
  | .pending _ => a.rebased?.map fun registers =>
    { a with registers := registers, tally := a.currentTally, upkeep := .settled }

/-- One register less is at the base once the one that is raised leaves it. -/
def left? (tally : Tally α) (old : Nat) : Option Nat :=
  if old = tally.base then Nat.psub tally.atBase 1 else some tally.atBase

def raise? (a : RegisterArray α) (slot old new : Nat) : Option (RegisterArray α) := do
  let registers ← a.registers.put? a.precision a.tally.base slot new
  let tally := a.tally.replace old new
  let atBase ← left? tally old
  let left := old = tally.base ∧ atBase = 0 ∧ tracksBase registers.width
  return { a with
    registers := registers
    tally := { tally with atBase := atBase }
    upkeep := if left then .pending none else .settled }

def update? (a : RegisterArray α) (c : Coupon) (inOrder : Bool) : Option (RegisterArray α) := do
  let a ← a.settle?
  let slot := c.register a.precision.size
  if c.value ≤ a.tally.base then return a
  else
    let old := a.get slot
    if c.value ≤ old then return a
    else
      let historic := if inOrder then a.historic + a.credit else a.historic
      { a with historic := historic }.raise? slot old c.value

def promoted? (p : Precision) (width : Width) (coupons : List Coupon) (count : Nat) :
    Option (RegisterArray α) := do
  let array ← coupons.foldlM (fun array c => array.update? c false) (zeros p width)
  return { array with historic := CouponCurve.estimate count }

variable {a : RegisterArray α} {slot new : Nat}

theorem ofValues?_eq (p : Precision) (width : Width) (values : List Nat) (historic : α) :
    ofValues? p width values historic = some (ofValues p width values historic) := by
  simp only [ofValues?, ofValues]
  rw [Registers.ofValues?_eq (fun _ member => Tally.base_scan_le _ member)]
  rfl

theorem copyAs?_eq (a : RegisterArray α) (width : Width) : a.copyAs? width = some (a.copyAs width) := by
  unfold copyAs? copyAs
  split_ifs
  · rfl
  · exact ofValues?_eq ..

theorem rebased?_eq {α : Type} (a : RegisterArray α) : a.rebased? = some a.rebased := by
  unfold rebased? rebased
  cases a.registers with
  | four =>
    dsimp only
    split_ifs
    · rfl
    · refine Registers.ofValues?_eq (fun value member => ?_)
      obtain ⟨least, found⟩ := Option.isSome_iff_exists.mp
        (List.isSome_min?_of_ne_nil (List.ne_nil_of_mem member))
      rw [found]
      exact (List.min?_eq_some_iff.mp found).2 value member
  | six | eight => rfl

theorem settle?_eq (a : RegisterArray α) : a.settle? = some a.settle := by
  unfold settle? settle
  rw [rebased?_eq]
  cases a.upkeep <;> rfl

/-- A register at the base of a settled tally is one of those that were counted. -/
theorem atBase_pos (sound : a.Sound) (settled : a.upkeep = .settled) (inside : slot < a.precision.size)
    (least : a.get slot = a.tally.base) : 1 ≤ a.tally.atBase := by
  obtain ⟨base, atBase⟩ := sound.settled settled
  rw [atBase, scan_atBase, ← base]
  exact List.count_pos_iff.mpr (mem_values.mpr ⟨slot, inside, least⟩)

theorem raise?_eq (sound : a.Sound) (settled : a.upkeep = .settled) (inside : slot < a.precision.size)
    (larger : a.get slot < new) : a.raise? slot (a.get slot) new = some (a.raise slot (a.get slot) new) := by
  have least : a.tally.base ≤ new := Nat.le_trans (sound.base_le_get slot) (Nat.le_of_lt larger)
  have atBase : left? (a.tally.replace (a.get slot) new) (a.get slot) =
      some (if a.get slot = (a.tally.replace (a.get slot) new).base then
        (a.tally.replace (a.get slot) new).atBase - 1
      else (a.tally.replace (a.get slot) new).atBase) := by
    unfold left?
    split_ifs with leaves
    · have counted := atBase_pos sound settled inside (leaves.trans (Tally.base_replace ..))
      exact Nat.psub_eq_sub (counted.trans_eq (Tally.atBase_replace ..).symm)
    · rfl
  simp only [raise?, Registers.put?_eq least, atBase, Option.bind_eq_bind, Option.bind_some]
  rfl

/-- A coupon never asks for the distance of a value below the base, or for one register less of none. -/
theorem update?_eq (sound : a.Sound) (c : Coupon) (inOrder : Bool) :
    a.update? c inOrder = some (a.update c inOrder) := by
  obtain ⟨sound', settled, _, _, _⟩ := settle_spec sound
  rw [update?, update, settle?_eq, Option.bind_eq_bind, Option.bind_some]
  dsimp only
  by_cases low : c.value ≤ a.settle.tally.base
  · rw [if_pos low, if_pos low]
    rfl
  · rw [if_neg low, if_neg low]
    by_cases held : c.value ≤ a.settle.get (c.register a.settle.precision.size)
    · rw [if_pos held, if_pos held]
      rfl
    · rw [if_neg held, if_neg held]
      exact raise?_eq (sound_credited sound' inOrder) settled
        (Nat.mod_lt _ a.settle.precision.size_pos) (Nat.lt_of_not_le held)

theorem promoted?_eq (p : Precision) (width : Width) (coupons : List Coupon) (count : Nat) :
    promoted? p width coupons count = some (Store.promoted p width coupons count : RegisterArray α) := by
  have all : ∀ a : RegisterArray α, a.Sound → coupons.foldlM (fun array c => array.update? c false) a =
      some (coupons.foldl (fun array c => array.update c false) a) := by
    induction coupons with
    | nil => exact fun _ _ => rfl
    | cons c rest ih =>
      intro a sound
      rw [List.foldlM_cons, List.foldl_cons, update?_eq sound]
      exact ih _ (update_spec sound c false).1
  rw [promoted?, all _ (sound_zeros p width).1]
  rfl

end RegisterArray

end DistinctCount
