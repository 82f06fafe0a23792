import DistinctCount.Image.Reader

namespace DistinctCount

/-- How tables are written: only what is taken, in order, or entry for entry. -/
inductive Layout where
  | compact
  | updatable
deriving DecidableEq

/-- The flags of an image. Byte order has a flag as well, which is never set in a readable image. -/
structure Flags where
  empty : Bool := false
  compact : Bool := false
  outOfOrder : Bool := false
  /-- Whether the tally of the registers is pending. -/
  pending : Bool := false
deriving DecidableEq

namespace Flags

def bigEndianBit : Nat := 0

def toByte (f : Flags) : Nat :=
  4 * f.empty.toNat + 8 * f.compact.toNat + 16 * f.outOfOrder.toNat + 32 * f.pending.toNat

def ofByte (byte : Nat) : Flags :=
  ⟨byte.testBit 2, byte.testBit 3, byte.testBit 4, byte.testBit 5⟩

theorem ofByte_toByte (f : Flags) : ofByte f.toByte = f := by
  obtain ⟨empty, compact, outOfOrder, pending⟩ := f
  revert empty compact outOfOrder pending
  decide

def layout (f : Flags) : Layout := if f.compact then .compact else .updatable

end Flags

structure Preamble where
  precision : Precision
  /-- The base-two logarithm of the table of the image. -/
  lgSize : Nat
  flags : Flags
  /-- The number of coupons of a list, or the base of registers. -/
  count : Nat
  mode : Mode
  width : Width
deriving DecidableEq

namespace Preamble

def version : Nat := 1

/-- The number that tells these images from those of other kinds of sketches. -/
def family : Nat := 7

/-- The number of four-byte words in front of the tables. -/
def words : Mode → Nat
  | .list => 2
  | .set => 3
  | .registers => 10

def bytes (p : Preamble) : List UInt8 :=
  [words p.mode, version, family, p.precision.lg, p.lgSize, p.flags.toByte, p.count,
    p.mode.code + 4 * p.width.code].map UInt8.ofNat

/-- Reads a preamble. The family is looked at before the version, and the length that the mode asks for
comes last. -/
def read : Reader Preamble := do
  let fields := (← Reader.bytes 8 .preamble).map UInt8.toNat
  let field (i : Nat) : Nat := fields.getD i 0
  Reader.refuseIf (field 2 ≠ family) (.wrongFamily (field 2))
  Reader.refuseIf (field 1 ≠ version) (.wrongVersion (field 1))
  let some precision := Precision.ofNat? (field 3) | throw (.wrongPrecision (field 3))
  Reader.refuseIf ((field 5).testBit Flags.bigEndianBit) .bigEndian
  let some mode := Mode.ofCode? (field 7 % 4) | throw (.unknownMode (field 7 % 4))
  let some width := Width.ofCode? (field 7 / 4) | throw (.unknownWidth (field 7 / 4))
  Reader.refuseIf (field 0 ≠ words mode) (.wrongPreambleWords (words mode) (field 0))
  return ⟨precision, field 4, .ofByte (field 5), field 6, mode, width⟩

end Preamble

end DistinctCount
