import DistinctCount.Exceptions
import DistinctCount.Registers.Nibbles
import DistinctCount.Registers.Octets
import DistinctCount.Registers.Sextets
import DistinctCount.Width

/-! The registers of a sketch in each of the three widths. Four-bit registers hold the distance of a
value from a base that the sketch keeps beside them; the last nibble sends the reader to the exceptions. -/

namespace DistinctCount

inductive Registers where
  | four (cells : Nibbles) (exceptions : Option Exceptions)
  | six (cells : Sextets)
  | eight (cells : Octets)
deriving DecidableEq

namespace Registers

/-- The nibble of a register whose value is among the exceptions. -/
def token : Nat := 15

def width : Registers → Width
  | .four .. => .four
  | .six _ => .six
  | .eight _ => .eight

/-- The bytes that `size` registers of a width take, exceptions apart. -/
def byteCount (width : Width) (size : Nat) : Nat :=
  match width with
  | .four => Nibbles.byteCount size
  | .six => Sextets.byteCount size
  | .eight => size

def zeros (width : Width) (size : Nat) : Registers :=
  match width with
  | .four => .four (.zeros size) none
  | .six => .six (.zeros size)
  | .eight => .eight (.zeros size)

/-- The value of a register, read against a base. A stray token reads as the least value that has a token. -/
def get (r : Registers) (base slot : Nat) : Nat :=
  match r with
  | .four cells exceptions =>
    let nibble := cells.get slot
    if nibble < token then base + nibble
    else (exceptions.bind (·.get? slot)).getD (base + token)
  | .six cells => cells.get slot
  | .eight cells => cells.get slot

/-- Whether a register has a token, but no exception to go with it. -/
def isStray (r : Registers) (slot : Nat) : Bool :=
  match r with
  | .four cells exceptions => cells.get slot = token ∧ (exceptions.bind (·.get? slot)).isNone
  | _ => false

/-- Writes a nibble register that no exception holds yet. A distance that a nibble cannot hold takes
the token and becomes an exception. -/
def encode (p : Precision) (base : Nat) (cells : Nibbles) (exceptions : Option Exceptions)
    (slot value : Nat) : Registers :=
  if value - base < token then .four (cells.put slot (value - base)) exceptions
  else .four (cells.put slot token) (some ((exceptions.getD (.empty p)).insert slot value))

/-- Raises a register to a larger value. -/
def put (r : Registers) (p : Precision) (base slot value : Nat) : Registers :=
  match r with
  | .four cells exceptions =>
    if cells.get slot = token then .four cells (exceptions.map (·.replace slot value))
    else encode p base cells exceptions slot value
  | .six cells => .six (cells.put slot value)
  | .eight cells => .eight (cells.put slot value)

/-- Registers that hold the given values in slot order, none of them below the base. -/
def ofValues (width : Width) (p : Precision) (base : Nat) (values : List Nat) : Registers :=
  values.zipIdx.foldl (fun registers (value, slot) => registers.put p base slot value)
    (zeros width p.size)

/-- The packed bytes, exceptions apart. -/
def bytes : Registers → Array UInt8
  | .four cells _ => cells.bytes
  | .six cells => cells.bytes
  | .eight cells => cells.bytes

def exceptions? : Registers → Option Exceptions
  | .four _ exceptions => exceptions
  | _ => none

def exceptionCount (r : Registers) : Nat :=
  match r.exceptions? with
  | some exceptions => exceptions.count
  | none => 0

end Registers

end DistinctCount
