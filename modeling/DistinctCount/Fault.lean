import DistinctCount.Precision
import DistinctCount.Text.Decimal
import DistinctCount.Text.Quoted
import DistinctCount.Text.Record
import DistinctCount.Width

namespace DistinctCount

/-- The classes of faults that a caller may tell apart. -/
inductive FaultKind where
  | invalidArgument
  | invalidData
  | incompatibleSketch
  | insufficientCapacity
deriving DecidableEq

namespace FaultKind

def label : FaultKind → String
  | .invalidArgument => "InvalidArgument"
  | .invalidData => "InvalidData"
  | .incompatibleSketch => "IncompatibleSketch"
  | .insufficientCapacity => "InsufficientCapacity"

def ofLabel? (label : String) : Option FaultKind :=
  [.invalidArgument, .invalidData, .incompatibleSketch, .insufficientCapacity].find? (·.label = label)

end FaultKind

/-- A fault as it is shown: its class, one message, and named details in order. -/
structure Report where
  kind : FaultKind
  message : String
  context : List (String × String)
deriving DecidableEq

namespace Report

/-- The message behind an arrow, if there is one. -/
def arrow (r : Report) : String := if r.message.isEmpty then "" else " => " ++ r.message

/-- The report on one line, details before the message. -/
def inline (r : Report) : String :=
  let details := r.context.map fun (key, value) => key ++ ": " ++ value
  let braced := if details.isEmpty then "" else ", context: \x7b " ++ ", ".intercalate details ++ " \x7d"
  r.kind.label ++ braced ++ r.arrow

/-- The report with each detail on a line of its own, after the message. -/
def lines (r : Report) : String :=
  let details := r.context.map fun (key, value) => "   " ++ key ++ ": " ++ value ++ "\n"
  let listed := if details.isEmpty then "" else "\nContext:\n" ++ String.join details
  r.kind.label ++ r.arrow ++ "\n" ++ listed

def shown (r : Report) : Text.Shown :=
  .record "Error" [
    ("kind", .atom r.kind.label),
    ("message", .atom (Text.quoted r.message)),
    ("context", .list (r.context.map fun (key, value) =>
      .tuple [.atom (Text.quoted key), .atom (Text.quoted value)]))]

end Report

/-- The parts of an image that can be cut short. -/
inductive ImagePart where
  | preamble
  | historic
  | lowSum
  | highSum
  | atBase
  | exceptionCount
  | registers
  | exceptionEntries
  | exceptionTable
  | listCoupons
  | setCount
  | setCoupons
deriving DecidableEq

def ImagePart.label : ImagePart → String
  | .preamble => "preamble"
  | .historic => "hip_accum"
  | .lowSum => "kxq0"
  | .highSum => "kxq1"
  | .atBase => "num_at_cur_min"
  | .exceptionCount => "aux_count"
  | .registers => "hll_array"
  | .exceptionEntries => "aux_entries"
  | .exceptionTable => "aux_table"
  | .listCoupons => "list_coupons"
  | .setCount => "set_count"
  | .setCoupons => "set_coupons"

/-- Why bytes are not the image of a sketch. -/
inductive ImageFault where
  | truncated (part : ImagePart)
  | wrongFamily (got : Nat)
  | wrongVersion (got : Nat)
  | wrongPrecision (got : Nat)
  | bigEndian
  | unknownMode (code : Nat)
  | unknownWidth (code : Nat)
  | wrongPreambleWords (expected got : Nat)
  | emptyFlagInMode (mode : Mode)
  | listCount (got : Nat)
  | emptyFlagWithCoupons (count : Nat)
  | listTableSize (lgSize : Nat)
  | couponsPastCount
  | emptyCoupon (mode : Mode) (index : Nat)
  | repeatedCoupon (mode : Mode) (index : Nat)
  | setPrecision (lg : Nat)
  | setCapacity (count lg : Nat)
  | setTableSize (lgSize largest : Nat)
  | setCountMismatch (held stored : Nat)
  | setOverloaded
  | setUnreachable
  | baseTooLarge (base : Nat)
  | baseOfWidth (width : Width) (base : Nat)
  | atBaseTooLarge (count size : Nat)
  | exceptionsOfWidth (width : Width) (count : Nat)
  | tooManyExceptions (count size : Nat)
  | exceptionOutOfRange (index slot : Nat)
  | repeatedException (slot : Nat)
  | exceptionTableSize (lgSize lg : Nat)
  | exceptionTableCorrupt
  | exceptionCountMismatch (held stored : Nat)
  | tokenCountMismatch (tokens stored : Nat)
  | exceptionWithoutToken (slot : Nat)
  | exceptionValue (slot value least : Nat)
  | registerTooLarge (value : Nat)
  | tallyBase (storedBase storedAtBase scannedBase scannedAtBase : Nat)
  | tallySum (low high : Float)
deriving DecidableEq

namespace ImageFault

/-- A coupon mode as the coupons of its image are called. -/
def container : Mode → String
  | .list => "list"
  | .set => "set"
  | .registers => "registers"

def message : ImageFault → String
  | .truncated part => "insufficient data while reading " ++ part.label
  | .wrongFamily got => "invalid family: expected 7 (HLL), got " ++ toString got
  | .wrongVersion got => "unsupported serial version: expected 1, got " ++ toString got
  | .wrongPrecision got => "lg_config_k " ++ toString got ++ " is out of range [4, 21]"
  | .bigEndian => "big-endian sketch images are not supported"
  | .unknownMode code => "invalid current mode: " ++ toString code
  | .unknownWidth code => "invalid target HLL type: " ++ toString code
  | .wrongPreambleWords expected got =>
    "invalid preamble ints: expected " ++ toString expected ++ ", got " ++ toString got
  | .emptyFlagInMode mode => "empty flag set on a " ++ mode.label ++ " mode sketch"
  | .listCount got => "LIST mode holds at most 7 coupons, got " ++ toString got
  | .emptyFlagWithCoupons count => "empty flag set but list count is " ++ toString count
  | .listTableSize lgSize => "LIST lg_arr must be 3, got " ++ toString lgSize
  | .couponsPastCount => "coupons past the list count"
  | .emptyCoupon mode _ => "empty coupon in " ++ container mode
  | .repeatedCoupon mode _ => "duplicate coupon in " ++ container mode
  | .setPrecision lg => "SET mode requires lg_config_k >= 8, got " ++ toString lg
  | .setCapacity count lg =>
    toString count ++ " coupons exceed the SET capacity for lg_config_k " ++ toString lg
  | .setTableSize lgSize largest =>
    "SET lg_arr " ++ toString lgSize ++ " out of range [5, " ++ toString largest ++ "]"
  | .setCountMismatch held stored =>
    "SET table holds " ++ toString held ++ " coupons, header says " ++ toString stored
  | .setOverloaded => "SET table is over its load factor"
  | .setUnreachable => "SET table entries are not reachable"
  | .baseTooLarge base => "cur_min " ++ toString base ++ " exceeds 63"
  | .baseOfWidth width base =>
    "cur_min must be 0 for " ++ width.label ++ ", got " ++ toString base
  | .atBaseTooLarge count size =>
    "num_at_cur_min " ++ toString count ++ " exceeds k = " ++ toString size
  | .exceptionsOfWidth width count =>
    width.label ++ " sketches carry no aux entries, got " ++ toString count
  | .tooManyExceptions count size =>
    "aux count " ++ toString count ++ " exceeds k = " ++ toString size
  | .exceptionOutOfRange .. => "aux entry slot out of range"
  | .repeatedException _ => "duplicate aux entry"
  | .exceptionTableSize lgSize lg =>
    "aux table lg size " ++ toString lgSize ++ " too large for lg_config_k " ++ toString lg
  | .exceptionTableCorrupt => "corrupt aux table"
  | .exceptionCountMismatch held stored =>
    "aux table holds " ++ toString held ++ " entries, header says " ++ toString stored
  | .tokenCountMismatch tokens stored =>
    toString tokens ++ " buckets reference the aux table, header says " ++ toString stored
  | .exceptionWithoutToken _ => "aux entry for an inline bucket"
  | .exceptionValue _ value least =>
    "aux value " ++ toString value ++ " outside [" ++ toString least ++ ", 63]"
  | .registerTooLarge value => "bucket value " ++ toString value ++ " exceeds 63"
  | .tallyBase .. => "accumulators disagree with buckets"
  | .tallySum .. => "kxq accumulators disagree with buckets"

/-- The details of a fault that its message leaves out. -/
def context : ImageFault → List (String × String)
  | .emptyCoupon _ index => [("index", toString index)]
  | .repeatedCoupon _ index => [("index", toString index)]
  | .exceptionOutOfRange index slot => [("index", toString index), ("slot", toString slot)]
  | .repeatedException slot => [("slot", toString slot)]
  | .exceptionWithoutToken slot => [("slot", toString slot)]
  | .exceptionValue slot _ _ => [("slot", toString slot)]
  | .tallyBase storedBase storedAtBase scannedBase scannedAtBase =>
    [("cur_min", toString storedBase), ("num_at_cur_min", toString storedAtBase),
      ("scanned_cur_min", toString scannedBase), ("scanned_num_at_cur_min", toString scannedAtBase)]
  | .tallySum low high =>
    [("kxq0", Text.ofFloat .plain low), ("kxq1", Text.ofFloat .plain high)]
  | _ => []

end ImageFault

/-- A register with a token that no exception belongs to. With assertions on, reading it stops the program;
with assertions off, it reads as the least value that has a token. -/
structure StrayToken where
  slot : Nat
deriving DecidableEq

def StrayToken.message (stray : StrayToken) : String :=
  "slot " ++ toString stray.slot ++ " holds AUX_TOKEN but has no aux entry"

/-- Why an operation on sketches is refused. -/
inductive Fault where
  | outOfRange (fault : OutOfRange)
  /-- The fingerprint of the seed is the reserved zero. -/
  | unusableSeed (seed : UInt32)
  | image (fault : ImageFault)
  /-- The fingerprints of two seeds differ. -/
  | seedMismatch (expected got : UInt16)
  | bufferTooShort (required available : Nat)
deriving DecidableEq

namespace Fault

def kind : Fault → FaultKind
  | .outOfRange _ => .invalidArgument
  | .unusableSeed _ => .invalidArgument
  | .image _ => .invalidData
  | .seedMismatch .. => .incompatibleSketch
  | .bufferTooShort .. => .insufficientCapacity

def message : Fault → String
  | .outOfRange fault => fault.message
  | .unusableSeed _ => "seed hashes to zero"
  | .image fault => fault.message
  | .seedMismatch expected got =>
    "seed hash mismatch: expected 0x" ++ Text.hexPadded 4 expected.toNat
      ++ ", got 0x" ++ Text.hexPadded 4 got.toNat
  | .bufferTooShort required available =>
    "buffer holds " ++ toString available ++ " bytes but " ++ toString required ++ " are required"

def context : Fault → List (String × String)
  | .unusableSeed seed => [("seed", toString seed.toNat)]
  | .image fault => fault.context
  | _ => []

def report (fault : Fault) : Report := ⟨fault.kind, fault.message, fault.context⟩

end Fault

end DistinctCount
