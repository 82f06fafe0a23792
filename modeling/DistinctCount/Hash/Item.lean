import DistinctCount.Bytes

namespace DistinctCount

/-- A value that can be presented to a sketch. -/
inductive Item where
  /-- An integer of a fixed number of bytes. -/
  | integer (width : Nat) (value : Int)
  | truth (value : Bool)
  | character (value : Char)
  | text (value : String)
  | bytes (value : List UInt8)
  /-- A sequence whose length is not part of its type. -/
  | sequence (items : List Item)
  | tuple (items : List Item)
  | absent
  | present (item : Item)
  | unit
deriving Inhabited

namespace Item

/-- A number as eight bytes: lengths and alternatives are written so. -/
def count (n : Nat) : List UInt8 := leBytes 8 n

mutual

/-- The bytes of an item: integers in two's complement, texts ended by a byte that UTF-8 never uses,
sequences behind their length. -/
def stream : Item → List UInt8
  | .integer width value => leBytes width (value % 256 ^ width).toNat
  | .truth value => [if value then 1 else 0]
  | .character value => leBytes 4 value.toNat
  | .text value => value.toUTF8.toList ++ [0xff]
  | .bytes value => count value.length ++ value
  | .sequence items => count items.length ++ streams items
  | .tuple items => streams items
  | .absent => count 0
  | .present item => count 1 ++ stream item
  | .unit => []

def streams : List Item → List UInt8
  | [] => []
  | item :: items => stream item ++ streams items

end

end Item

end DistinctCount
