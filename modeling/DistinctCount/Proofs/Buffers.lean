import DistinctCount.Proofs.Canonical
import DistinctCount.Proofs.Guards

namespace DistinctCount

/-- A buffer of a fixed size: the bytes in front of the position of the next write, and those behind it. -/
structure Buffer where
  written : List UInt8
  left : List UInt8
deriving DecidableEq

abbrev Pen := StateT Buffer Option Unit

namespace Pen

variable {β : Type}

/-- Writes over the next bytes of the buffer. It stops if there are not as many. -/
def write (bytes : List UInt8) : Pen := fun buffer =>
  if buffer.left.length < bytes.length then none
  else some ((), ⟨buffer.written ++ bytes, buffer.left.drop bytes.length⟩)

def byte (n : Nat) : Pen := write [UInt8.ofNat n]

def word (n : Nat) : Pen := write (leBytes 4 n)

def float (x : Float) : Pen := write (floatBytes x)

def coupon (c : Coupon) : Pen := word c.word.toNat

theorem write_nil : write [] = pure () := by
  funext buffer
  change some ((), Buffer.mk (buffer.written ++ []) buffer.left) = some ((), buffer)
  rw [List.append_nil]

/-- Two writes, one after the other, are one: if the first one fits, the second one finds what it has left. -/
theorem write_append (first second : List UInt8) :
    (write first >>= fun _ => write second) = write (first ++ second) := by
  funext buffer
  change (write first buffer).bind (fun next => write second next.2) = write (first ++ second) buffer
  by_cases short : buffer.left.length < first.length
  · have all : buffer.left.length < (first ++ second).length :=
      Nat.lt_of_lt_of_le short (by rw [List.length_append]; exact Nat.le_add_right _ _)
    rw [write, if_pos short, write, if_pos all]
    rfl
  · have same : (buffer.left.drop first.length).length < second.length ↔
        buffer.left.length < (first ++ second).length := by
      rw [List.length_drop, List.length_append]
      omega
    rw [write, if_neg short, Option.bind_some]
    simp only [write, same, List.append_assoc, List.drop_drop, List.length_append]

/-- A loop that writes something for each item is one write. -/
theorem forM_write (f : β → List UInt8) (items : List β) :
    (items.forM fun x => write (f x)) = write (items.flatMap f) := by
  induction items with
  | nil => exact write_nil.symm
  | cons x rest ih =>
    change (write (f x) >>= fun _ => rest.forM fun x => write (f x)) = _
    rw [ih, write_append, List.flatMap_cons]

theorem forM_coupon (coupons : List Coupon) : coupons.forM coupon = write (couponBytes coupons) :=
  forM_write _ coupons

end Pen

namespace Preamble

def write (p : Preamble) : Pen := do
  Pen.byte (words p.mode)
  Pen.byte version
  Pen.byte family
  Pen.byte p.precision.lg
  Pen.byte p.lgSize
  Pen.byte p.flags.toByte
  Pen.byte p.count
  Pen.byte (p.mode.code + 4 * p.width.code)

theorem write_eq (p : Preamble) : p.write = Pen.write p.bytes := by
  simp only [write, Pen.byte, Pen.write_append]
  rfl

end Preamble

namespace RegisterArray

variable {a : RegisterArray Float}

/-- Writes the table of exceptions. A table that is still to come is written free entry by free entry. -/
def writeEntries (a : RegisterArray Float) (layout : Layout) : Pen :=
  match a.registers, layout with
  | .four _ (some exceptions), .compact =>
    exceptions.sorted.forM fun (slot, value) => Pen.coupon (.pack slot value)
  | .four _ (some exceptions), .updatable => exceptions.table.entries.toList.forM Pen.coupon
  | .four _ none, .updatable => do
    let size ← Word.shl 32 1 a.lgTableSize
    (List.range size).forM fun _ => Pen.word 0
  | _, _ => return ()

def write (a : RegisterArray Float) (layout : Layout) : Pen := do
  Pen.float a.historic
  Pen.float a.tally.low
  Pen.float a.tally.high
  Pen.word a.tally.atBase
  Pen.word a.registers.exceptionCount
  Pen.write a.registers.bytes.toList
  a.writeEntries layout

theorem writeEntries_eq (small : a.lgTableSize < 32) (layout : Layout) :
    a.writeEntries layout = Pen.write (couponBytes (a.entries layout)) := by
  obtain ⟨p, registers, tally, historic, upkeep⟩ := a
  cases registers with
  | four cells exceptions =>
    cases exceptions with
    | none =>
      cases layout with
      | compact => exact Pen.write_nil.symm
      | updatable =>
        have lifted : (liftM (some (2 ^ Exceptions.lgMinSize p)) : StateT Buffer Option Nat) =
            pure (2 ^ Exceptions.lgMinSize p) := rfl
        have free : (List.range (2 ^ Exceptions.lgMinSize p)).map (fun _ => Coupon.empty) =
            List.replicate (2 ^ Exceptions.lgMinSize p) Coupon.empty := by
          rw [List.map_const', List.length_range]
        simp only [writeEntries, entries]
        rw [Word.shl_one small, lgTableSize, lifted, pure_bind, ← free, couponBytes, List.flatMap_map]
        exact Pen.forM_write _ _
    | some e =>
      cases layout with
      | compact =>
        simp only [writeEntries, entries]
        rw [couponBytes, List.flatMap_map]
        exact Pen.forM_write _ _
      | updatable => exact Pen.forM_coupon _
  | six | eight => exact Pen.write_nil.symm

theorem write_eq (small : a.lgTableSize < 32) (layout : Layout) : a.write layout = Pen.write (a.body layout) := by
  simp only [write, writeEntries_eq small, Pen.float, Pen.word, Pen.write_append, body, List.append_assoc]

theorem length_entries (readable : a.registers.Readable a.precision a.tally.base) (layout : Layout) :
    (a.entries layout).length = a.entryCount layout := by
  obtain ⟨p, registers, tally, historic, upkeep⟩ := a
  cases registers with
  | four cells exceptions =>
    cases exceptions with
    | none =>
      cases layout with
      | compact => rfl
      | updatable => exact List.length_replicate ..
    | some e =>
      obtain ⟨_, _, kept⟩ := readable
      obtain ⟨serviceable, _, _⟩ := kept e rfl
      cases layout with
      | compact =>
        have perm : e.sorted.Perm e.bindings := List.mergeSort_perm _ _
        simp only [entries, entryCount]
        rw [List.length_map, perm.length_eq, ← Exceptions.count_eq serviceable.keyed]
        rfl
      | updatable => exact serviceable.keyed.size_entries
  | six | eight => rfl

theorem length_body {layout : Layout} (entries : (a.entries layout).length = a.entryCount layout) :
    8 + (a.body layout).length = a.imageSize layout := by
  simp only [body, floatBytes, List.length_append, length_leBytes, Reader.length_couponBytes, Array.length_toList,
    entries, imageSize, headerSize]
  omega

end RegisterArray

namespace Store

variable {s : Store Float} {p : Precision} {coupons : List Coupon}

def write (s : Store Float) (layout : Layout) : Pen :=
  match s, layout with
  | .list coupons _, .compact => coupons.coupons.forM Pen.coupon
  | .list coupons _, .updatable =>
    (coupons.coupons ++ List.replicate (CouponList.capacity - coupons.count) Coupon.empty).forM Pen.coupon
  | .set coupons _, .compact => do
    Pen.word coupons.count
    coupons.sorted.forM Pen.coupon
  | .set coupons _, .updatable => do
    Pen.word coupons.count
    coupons.table.entries.toList.forM Pen.coupon
  | .registers array, layout => array.write layout

/-- As many coupons are written in a layout as the size of the image counts. -/
def Measured (s : Store Float) (layout : Layout) : Prop :=
  match s, layout with
  | .list coupons _, .updatable => coupons.count ≤ CouponList.capacity
  | .set coupons _, .compact => coupons.sorted.length = coupons.count
  | .registers array, layout =>
    array.lgTableSize < 32 ∧ (array.entries layout).length = array.entryCount layout
  | _, _ => True

theorem Holds.measured (holds : s.Holds p coupons) (layout : Layout) : s.Measured layout := by
  cases s with
  | list list width =>
    obtain ⟨_, _, short⟩ := holds.sound
    cases layout with
    | compact => trivial
    | updatable => exact Nat.le_of_lt short
  | set set width =>
    obtain ⟨inner, _, _⟩ := sound_set holds.sound
    have perm : set.sorted.Perm set.coupons := List.mergeSort_perm _ _
    cases layout with
    | compact => exact perm.length_eq.trans (CouponSet.count_eq inner.keyed).symm
    | updatable => trivial
  | registers array =>
    have readable := holds.registers.1.registers.readable
    have small := Nat.le_trans (RegisterArray.lgTableSize_le readable) (Exceptions.lgMaxSize_le _)
    exact ⟨Nat.lt_of_le_of_lt small (by decide), RegisterArray.length_entries readable layout⟩

theorem write_eq {layout : Layout} (measured : s.Measured layout) :
    s.write layout = Pen.write (s.body layout) := by
  cases s with
  | list list width => cases layout <;> exact Pen.forM_coupon _
  | set set width =>
    cases layout <;> simp only [write, Pen.word, Pen.forM_coupon, Pen.write_append] <;> rfl
  | registers array => exact RegisterArray.write_eq measured.1 layout

theorem length_body {layout : Layout} (measured : s.Measured layout) :
    8 + (s.body layout).length = s.imageSize layout := by
  cases s with
  | list list width =>
    cases layout with
    | compact => exact congrArg (8 + ·) (Reader.length_couponBytes _)
    | updatable =>
      have whole : list.coupons.length + (CouponList.capacity - list.coupons.length) = CouponList.capacity :=
        Nat.add_sub_of_le measured
      rw [body, Reader.length_couponBytes, List.length_append, List.length_replicate, CouponList.count, whole]
      rfl
  | set set width =>
    cases layout with
    | compact =>
      rw [body, List.length_append, length_leBytes, Reader.length_couponBytes, measured, ← Nat.add_assoc]
      rfl
    | updatable =>
      rw [body, List.length_append, length_leBytes, Reader.length_couponBytes, Array.length_toList,
        ← Nat.add_assoc]
      rfl
  | registers array => exact RegisterArray.length_body measured.2

end Store

namespace Sketch

variable {s : Sketch Float} {layout : Layout}

def write (s : Sketch Float) (layout : Layout) : Pen := do
  (s.preamble layout).write
  s.store.write layout

/-- The image of a sketch written over a buffer of its size. It stops unless the last write comes to the
announced size. -/
def writeOver? (s : Sketch Float) (layout : Layout) (bytes : List UInt8) : Option (List UInt8) := do
  let buffer := (← (s.write layout).run ⟨[], bytes⟩).2
  guard (buffer.written.length = s.imageSize layout)
  return buffer.written ++ buffer.left

def image? (s : Sketch Float) (layout : Layout) : Option (List UInt8) :=
  s.writeOver? layout (List.replicate (s.imageSize layout) 0)

/-- Writes the updatable image to the front of a buffer, and gives what becomes of the buffer as well. A buffer
that is too short is left as it is. -/
def writeInto? (s : Sketch Float) (buffer : List UInt8) : Option (Except Fault Nat × List UInt8) := do
  let required := s.imageSize .updatable
  if buffer.length < required then return (.error (.bufferTooShort required buffer.length), buffer)
  else
    let front ← s.writeOver? .updatable (← sliceTo? buffer required)
    return (.ok required, front ++ buffer.drop required)

theorem image_eq (measured : s.store.Measured layout) :
    s.image layout = (s.preamble layout).bytes ++ s.store.body layout ∧
      (s.image layout).length = s.imageSize layout := by
  have size : ((s.preamble layout).bytes ++ s.store.body layout).length = s.imageSize layout :=
    List.length_append.trans (Store.length_body measured)
  have whole : s.image layout = (s.preamble layout).bytes ++ s.store.body layout := by
    rw [image, writeOver, overlay, size, List.drop_replicate, Nat.sub_self, List.replicate_zero, List.append_nil]
  exact ⟨whole, (congrArg List.length whole).trans size⟩

/-- All writes of an image together are one of as many bytes as are announced. -/
theorem run_write (measured : s.store.Measured layout) (bytes : List UInt8) :
    (s.write layout).run ⟨[], bytes⟩ =
      if bytes.length < s.imageSize layout then none
      else some ((), ⟨s.image layout, bytes.drop (s.imageSize layout)⟩) := by
  obtain ⟨whole, size⟩ := image_eq measured
  have one : s.write layout = Pen.write (s.image layout) := by
    rw [write, Preamble.write_eq, Store.write_eq measured, Pen.write_append, whole]
  rw [one, ← size]
  rfl

theorem writeOver?_eq (measured : s.store.Measured layout) {bytes : List UInt8}
    (sized : bytes.length = s.imageSize layout) : s.writeOver? layout bytes = some (s.image layout) := by
  have fits : ¬ bytes.length < s.imageSize layout := Nat.not_lt_of_le (Nat.le_of_eq sized.symm)
  have none : bytes.drop (s.imageSize layout) = [] := List.drop_eq_nil_of_le (Nat.le_of_eq sized)
  have size := (image_eq measured).2
  rw [writeOver?, run_write measured, if_neg fits, none]
  simp [size]

theorem writeInto?_eq (measured : s.store.Measured .updatable) {buffer : List UInt8}
    (enough : s.imageSize .updatable ≤ buffer.length) :
    s.writeInto buffer =
        .ok (s.imageSize .updatable, s.image .updatable ++ buffer.drop (s.imageSize .updatable)) ∧
      s.writeInto? buffer =
        some (.ok (s.imageSize .updatable), s.image .updatable ++ buffer.drop (s.imageSize .updatable)) := by
  obtain ⟨whole, size⟩ := image_eq measured
  have front := writeOver?_eq measured (List.length_take_of_le enough)
  constructor
  · refine (if_neg (Nat.not_lt_of_le enough)).trans ?_
    rw [writeOver, ← whole, overlay, size]
  · refine (if_neg (Nat.not_lt_of_le enough)).trans ?_
    rw [sliceTo?, if_pos enough, Option.bind_eq_bind, Option.bind_some, front]
    rfl

/-- The announced size of an image is the size that is written, in either layout. Any buffer takes the image if
and only if it is as large, and keeps what is behind it. A caller's buffer that is too short stays as it is. -/
theorem writeInto?_of_reachable (reachable : s.Reachable) :
    (∀ layout, (s.image layout).length = s.imageSize layout ∧ s.image? layout = some (s.image layout) ∧
      ∀ bytes, (s.write layout).run ⟨[], bytes⟩ =
        if bytes.length < s.imageSize layout then none
        else some ((), ⟨s.image layout, bytes.drop (s.imageSize layout)⟩)) ∧
    ∀ buffer,
      (buffer.length < s.imageSize .updatable →
        s.writeInto buffer = .error (.bufferTooShort (s.imageSize .updatable) buffer.length) ∧
        s.writeInto? buffer = some (.error (.bufferTooShort (s.imageSize .updatable) buffer.length), buffer)) ∧
      (s.imageSize .updatable ≤ buffer.length →
        s.writeInto buffer =
          .ok (s.imageSize .updatable, s.image .updatable ++ buffer.drop (s.imageSize .updatable)) ∧
        s.writeInto? buffer =
          some (.ok (s.imageSize .updatable), s.image .updatable ++ buffer.drop (s.imageSize .updatable))) := by
  obtain ⟨coupons, holds⟩ := reachable.holds
  have measured := holds.store.measured
  refine ⟨fun layout => ⟨(image_eq (measured layout)).2, ?_, run_write (measured layout)⟩,
    fun buffer => ⟨fun short => ?_, fun enough => writeInto?_eq (measured .updatable) enough⟩⟩
  · exact writeOver?_eq (measured layout) List.length_replicate
  · exact ⟨if_pos short, if_pos short⟩

/-- Four-bit registers whose table of exceptions was doubled, in a buffer of one byte more, and in one of one byte
less. -/
theorem writeInto?_of_reachable_exceptions :
    let s := (empty ⟨4, by decide, by decide⟩ .four .standard : Sketch Float).addCoupons (Coupon.row 8 20)
    s.Reachable ∧ s.imageSize .updatable = 112 ∧
      s.writeInto? (List.replicate 113 7) = some (.ok 112, s.image .updatable ++ [7]) ∧
      s.writeInto? (List.replicate 111 7) = some (.error (.bufferTooShort 112 111), List.replicate 111 7) := by
  intro s
  have reachable : s.Reachable := .addCoupons (.empty _ _ _) (Coupon.valued_row 8 (by decide) (by decide))
  have size : s.imageSize .updatable = 112 := rfl
  obtain ⟨_, buffers⟩ := writeInto?_of_reachable reachable
  refine ⟨reachable, size, ?_, ?_⟩
  · exact ((buffers (List.replicate 113 7)).2 (by rw [size, List.length_replicate]; decide)).2
  · exact ((buffers (List.replicate 111 7)).1 (by rw [size, List.length_replicate]; decide)).2

end Sketch

end DistinctCount
