import DistinctCount.Coupon
import DistinctCount.Estimate.Composite
import DistinctCount.Registers
import DistinctCount.Tally

/-! The third representation of a sketch: registers together with their tally. Bulk changes put the
tally off: it is then pending, and the next single change settles it first. -/

namespace DistinctCount

/-- Whether the tally describes the registers. A pending tally may have been scanned for readers. -/
inductive Upkeep (α : Type) where
  | settled
  | pending (scanned : Option (Tally α))
deriving DecidableEq

/-- Registers, what is known of them, and the historic estimate. While the tally is pending, only its
base is in force, for the registers are encoded against it. -/
structure RegisterArray (α : Type) where
  precision : Precision
  registers : Registers
  tally : Tally α
  historic : α
  upkeep : Upkeep α
deriving DecidableEq

namespace RegisterArray

section

variable {α : Type} [Scalar α]

def zeros (p : Precision) (width : Width) : RegisterArray α :=
  ⟨p, .zeros width p.size, .zeros p.size, Scalar.ofNat 0, .settled⟩

def width (a : RegisterArray α) : Width := a.registers.width

/-- Only four-bit registers move their base. -/
def tracksBase (width : Width) : Bool := width = .four

/-- Registers that hold the given values in slot order, with a settled tally. -/
def ofValues (p : Precision) (width : Width) (values : List Nat) (historic : α) : RegisterArray α :=
  let tally := Tally.scan (tracksBase width) values
  ⟨p, .ofValues width p tally.base values, tally, historic, .settled⟩

def get (a : RegisterArray α) (slot : Nat) : Nat := a.registers.get a.tally.base slot

def values (a : RegisterArray α) : List Nat :=
  (List.range a.precision.size).map a.get

def scan (a : RegisterArray α) : Tally α :=
  Tally.scan (tracksBase a.width) a.values

/-- The tally of the registers as they are. -/
def currentTally (a : RegisterArray α) : Tally α :=
  match a.upkeep with
  | .settled => a.tally
  | .pending (some scanned) => scanned
  | .pending none => a.scan

/-- Keeps the scan of a pending tally for the readers that follow. -/
def primed (a : RegisterArray α) : RegisterArray α :=
  match a.upkeep with
  | .pending none => { a with upkeep := .pending (some a.scan) }
  | _ => a

def isPending (a : RegisterArray α) : Bool :=
  match a.upkeep with
  | .settled => false
  | .pending _ => true

/-- The same values, encoded against the least of them if the registers move their base. -/
def rebased (a : RegisterArray α) : Registers :=
  match a.registers with
  | .four .. =>
    let values := a.values
    let least := values.min?.getD a.tally.base
    if least = a.tally.base then a.registers else .ofValues .four a.precision least values
  | registers => registers

/-- Makes up for a pending tally. -/
def settle (a : RegisterArray α) : RegisterArray α :=
  match a.upkeep with
  | .settled => a
  | .pending _ => { a with registers := a.rebased, tally := a.currentTally, upkeep := .settled }

/-- The reciprocal of the probability that the next new item changes a register. -/
def credit (a : RegisterArray α) : α :=
  Scalar.ofNat a.precision.size / a.tally.sum

/-- Raises a register whose value is `old`. Once the last register leaves a base that moves, the tally
is pending. -/
def raise (a : RegisterArray α) (slot old new : Nat) : RegisterArray α :=
  let registers := a.registers.put a.precision a.tally.base slot new
  let tally := a.tally.replace old new
  let atBase := if old = tally.base then tally.atBase - 1 else tally.atBase
  let left := old = tally.base ∧ atBase = 0 ∧ tracksBase registers.width
  { a with
    registers := registers
    tally := { tally with atBase := atBase }
    upkeep := if left then .pending none else .settled }

/-- Presents a coupon. In order, the change is credited to the historic estimate with the probability
that it had before. -/
def update (a : RegisterArray α) (c : Coupon) (inOrder : Bool) : RegisterArray α :=
  let a := a.settle
  let slot := c.register a.precision.size
  if c.value ≤ a.tally.base then a
  else
    let old := a.get slot
    if c.value ≤ old then a
    else
      let historic := if inOrder then a.historic + a.credit else a.historic
      { a with historic := historic }.raise slot old c.value

/-- Raises a register, if the value is larger, without regard to the tally. -/
def lift (a : RegisterArray α) (slot value : Nat) : RegisterArray α :=
  if a.get slot < value then
    { a with registers := a.registers.put a.precision a.tally.base slot value }
  else a

/-- Lifts each register to the values of the source whose slots end in the same bits. -/
def mergeSlots (a source : RegisterArray α) : RegisterArray α :=
  source.values.zipIdx.foldl (fun a (value, slot) => a.lift (slot % a.precision.size) value) a

/-- The maximum of both arrays in each register. The source is at least as precise. -/
def merge (a source : RegisterArray α) : RegisterArray α :=
  let merged :=
    match a.registers, source.registers with
    | .eight cells, .eight others =>
      if a.precision = source.precision then { a with registers := .eight (cells.maxima others) }
      else a.mergeSlots source
    | _, _ => a.mergeSlots source
  { merged with upkeep := .pending none }

/-- The same values and history in registers of another width. -/
def copyAs (a : RegisterArray α) (width : Width) : RegisterArray α :=
  if width = a.width ∧ !a.isPending then a else ofValues a.precision width a.values a.historic

/-- For each register of a coarser array the maximum of the registers whose slots end in its bits. -/
def foldedValues (a : RegisterArray α) (p : Precision) : List Nat :=
  (List.range p.size).map fun slot =>
    (List.range (a.precision.size / p.size)).foldl
      (fun largest block => max largest (a.get (slot + block * p.size))) 0

/-- The array at a precision that is no finer. Only a copy at the same precision keeps its history. -/
def folded (a : RegisterArray α) (p : Precision) (width : Width) : RegisterArray α :=
  if p = a.precision then a.copyAs width
  else ofValues p width (a.foldedValues p) (Scalar.ofNat 0)

end

variable {α : Type} [Analytic α]

def compositeEstimate (a : RegisterArray α) : α :=
  Composite.estimate a.precision a.currentTally

def estimate (a : RegisterArray α) (outOfOrder : Bool) : α :=
  if outOfOrder then a.compositeEstimate else a.historic

def lowerBound (a : RegisterArray α) (outOfOrder : Bool) (deviation : Deviation) : α :=
  Composite.lowerBound a.precision a.currentTally outOfOrder deviation (a.estimate outOfOrder)

def upperBound (a : RegisterArray α) (outOfOrder : Bool) (deviation : Deviation) : α :=
  Composite.upperBound a.precision outOfOrder deviation (a.estimate outOfOrder)

end RegisterArray

end DistinctCount
