import DistinctCount.Sketch

/-! Unions of sketches. A union is as precise as its least precise input, and it does not matter in
which representation or width an input comes. -/

namespace DistinctCount

/-- The sketches merged so far, as one sketch of the widest registers. -/
structure SketchUnion (α : Type) where
  /-- The precision that no input raises. -/
  ceiling : Precision
  merged : Sketch α

namespace SketchUnion

section

variable {α : Type} [Scalar α]

def empty (ceiling : Precision) (seed : Seed) : SketchUnion α :=
  ⟨ceiling, .empty ceiling .eight seed⟩

/-- An empty union under the standard seed. -/
def create (lg : Nat) : Except OutOfRange (SketchUnion α) :=
  (Precision.check "lg_max_k" lg).map fun ceiling => empty ceiling .standard

/-- An empty union for sketches of a given seed. -/
def withSeed (lg : Nat) (seed : UInt32) : Except Fault (SketchUnion α) := do
  let ceiling ← (Precision.check "lg_k" lg).mapError .outOfRange
  let seed ← Seed.check seed
  return empty ceiling seed

def isEmpty (u : SketchUnion α) : Bool := u.merged.isEmpty

def precision (u : SketchUnion α) : Precision := u.merged.precision

def add (u : SketchUnion α) (item : Item) : SketchUnion α :=
  { u with merged := u.merged.add item }

def addBytes (u : SketchUnion α) (bytes : List UInt8) : SketchUnion α :=
  { u with merged := u.merged.addBytes bytes }

/-- A sketch of the widest registers at a coarser precision: registers are folded, and coupons are
presented once more. -/
def coarsened (s : Sketch α) (p : Precision) : Sketch α :=
  let start : Sketch α := { Sketch.empty p .eight s.seed with outOfOrder := s.outOfOrder }
  match s.store.content with
  | .coupons coupons => start.addCoupons coupons
  | .registers array => { start with store := .registers (array.folded p .eight) }

/-- Takes registers that are at least as precise into a store. A store that still has coupons becomes a
copy of the registers to which the coupons are presented. -/
def absorbRegisters (store : Store α) (p : Precision) (source : RegisterArray α) : RegisterArray α :=
  match store.content with
  | .coupons coupons =>
    coupons.foldl (fun array c => array.update c false) (source.folded p .eight)
  | .registers array => array.merge source

/-- Takes in a source that is at least as precise. The result is out of order. -/
def absorb (s : Sketch α) (source : Store α) : Sketch α :=
  let s := { s with outOfOrder := true }
  match source.content with
  | .coupons coupons => s.addCoupons coupons
  | .registers array => { s with store := .registers (absorbRegisters s.store s.precision array) }

/-- Merges a sketch into the union. Even an empty sketch lowers the precision to its own. -/
def merge (u : SketchUnion α) (s : Sketch α) : Except Fault (SketchUnion α) :=
  if s.seed.fingerprint ≠ u.merged.seed.fingerprint then
    .error (.seedMismatch u.merged.seed.fingerprint s.seed.fingerprint)
  else
    let p := min u.merged.precision s.precision
    let merged := if p = u.merged.precision then u.merged else coarsened u.merged p
    .ok { u with merged := absorb merged s.store }

/-- The union as a sketch with registers of a width. -/
def resultAs (u : SketchUnion α) (width : Width) : Sketch α := u.merged.copyAs width

/-- The union as a sketch of the widest registers. -/
def result (u : SketchUnion α) : Sketch α := u.resultAs .eight

def cleared (u : SketchUnion α) : SketchUnion α := empty u.ceiling u.merged.seed

/-- Scans registers with pending upkeep once for all readers that follow. -/
def primed (u : SketchUnion α) : SketchUnion α := { u with merged := u.merged.primed }

end

variable {α : Type} [Analytic α]

def estimate (u : SketchUnion α) : α := u.merged.estimate

def compositeEstimate (u : SketchUnion α) : α := u.merged.compositeEstimate

def lowerBound (u : SketchUnion α) (deviation : Deviation) : α := u.merged.lowerBound deviation

def upperBound (u : SketchUnion α) (deviation : Deviation) : α := u.merged.upperBound deviation

end SketchUnion

/-- Merges another sketch into a sketch. The result has the coarser precision and the wider registers of
both, and is out of order. -/
def Sketch.merge {α : Type} [Scalar α] (s other : Sketch α) : Except Fault (Sketch α) := do
  let union ← (SketchUnion.empty (max s.precision other.precision) s.seed).merge s
  let union ← union.merge other
  return union.resultAs (max s.width other.width)

end DistinctCount
