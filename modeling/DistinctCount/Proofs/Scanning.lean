import DistinctCount.Proofs.Encoding
import DistinctCount.Proofs.Fillings
import DistinctCount.RegisterArray

namespace DistinctCount

namespace Nibbles

variable {n : Nibbles} {slot size : Nat}

def get? (n : Nibbles) (slot : Nat) : Option Nat := do
  let index ← Word.shr 32 slot 1
  let byte ← n.bytes[index]?
  if slot &&& 1 = 0 then return byte.toNat &&& 15 else Word.shr 8 byte.toNat 4

theorem get?_eq (sized : n.bytes.size = byteCount size) (whole : size % 4 = 0) (inside : slot < size) :
    n.get? slot = some (n.get slot) := by
  have index : Word.shr 32 slot 1 = some (slot / 2) := Word.shr_eq (by decide)
  have below : slot / 2 < n.bytes.size := by
    rw [sized, byteCount]
    omega
  have high : Word.shr 8 n.bytes[slot / 2].toNat 4 = some (n.bytes[slot / 2].toNat / 16) := Word.shr_eq (by decide)
  have byte : n.byte (slot / 2) = n.bytes[slot / 2].toNat := by simp [Nibbles.byte, below]
  rw [get?, index, Option.bind_eq_bind, Option.bind_some, Array.getElem?_eq_getElem below, Option.bind_eq_bind,
    Option.bind_some, get, byte, Nat.and_one_is_mod]
  split_ifs
  · rw [Nat.and_two_pow_sub_one_eq_mod _ 4]
    rfl
  · exact high

end Nibbles

namespace Sextets

variable {s : Sextets} {slot size : Nat}

/-- Where the pair of bytes of a cell starts, how many of its bits lie below the cell, and what it holds. -/
def window? (s : Sextets) (slot : Nat) : Option (Nat × Nat × Nat) := do
  let bit ← Word.mul 32 slot 6
  let index ← Word.shr 32 bit 3
  let low ← s.bytes[index]?
  let high ← s.bytes[← Word.add Word.index index 1]?
  return (index, bit &&& 7, low.toNat + 256 * high.toNat)

def get? (s : Sextets) (slot : Nat) : Option Nat := do
  let bit ← Word.mul 32 slot 6
  let index ← Word.shr 32 bit 3
  let low ← s.bytes[index]?
  let high ← s.bytes[← Word.add Word.index index 1]?
  let cell ← Word.shr 16 (low.toNat + 256 * high.toNat) (bit &&& 7)
  return cell &&& 63

theorem next_index (few : size ≤ 2 ^ 21) (inside : slot < size) :
    Word.add Word.index (index slot) 1 = some (index slot + 1) := by
  refine Word.add_eq (Nat.lt_of_le_of_lt (m := 2 ^ 24) ?_ (by decide))
  rw [index]
  omega

theorem window?_eq (sized : s.bytes.size = byteCount size) (whole : size % 4 = 0) (few : size ≤ 2 ^ 21)
    (inside : slot < size) : s.window? slot = some (index slot, shift slot, s.pair (index slot)) := by
  have pair := inside_of_lt whole inside
  rw [← sized] at pair
  have bit : Word.mul 32 slot 6 = some (slot * 6) := Word.mul_eq (by omega)
  have first : Word.shr 32 (slot * 6) 3 = some (index slot) := Word.shr_eq (by decide)
  have second := next_index few inside
  have low : s.bytes[index slot]? = some s.bytes[index slot] := Array.getElem?_eq_getElem _
  have high : s.bytes[index slot + 1]? = some s.bytes[index slot + 1] := Array.getElem?_eq_getElem _
  have shift : slot * 6 &&& 7 = Sextets.shift slot := Nat.and_two_pow_sub_one_eq_mod _ 3
  simp only [window?, bit, first, second, low, high, shift, Option.bind_eq_bind, Option.bind_some,
    Sextets.pair, Array.getD_eq_getD_getElem?, Option.getD_some]
  rfl

theorem get?_eq (sized : s.bytes.size = byteCount size) (whole : size % 4 = 0) (few : size ≤ 2 ^ 21)
    (inside : slot < size) : s.get? slot = some (s.get slot) := by
  have steps : s.get? slot =
      (s.window? slot).bind fun (_, shift, word) => (Word.shr 16 word shift).map (· &&& 63) := by
    simp only [get?, window?, Option.bind_eq_bind, Option.bind_assoc, Option.pure_def, Option.bind_some,
      Option.map_eq_bind]
    rfl
  have less : shift slot < 16 := Nat.lt_of_le_of_lt (shift_le slot) (by decide)
  have cell : Word.shr 16 (s.pair (index slot)) (shift slot) = some (s.pair (index slot) >>> shift slot) :=
    if_pos less
  rw [steps, window?_eq sized whole few inside, Option.bind_some]
  dsimp only
  rw [cell, Option.map_some, Nat.and_two_pow_sub_one_eq_mod _ 6]
  rfl

end Sextets

namespace Octets

variable {o : Octets} {slot : Nat}

def get? (o : Octets) (slot : Nat) : Option Nat := do
  return (← o.bytes[slot]?).toNat

theorem get?_eq (inside : slot < o.bytes.size) : o.get? slot = some (o.get slot) := by
  rw [get?, Array.getElem?_eq_getElem inside, get]
  simp [inside]

end Octets

namespace Registers

variable {r : Registers} {p : Precision} {base slot : Nat} {cells : Nibbles} {exceptions : Option Exceptions}

/-- The value of a register. What stands in for an exception that is missing is computed beforehand. -/
def get? (r : Registers) (base slot : Nat) : Option Nat :=
  match r with
  | .four cells exceptions => do
    let nibble ← cells.get? slot
    if nibble < token then Word.add 8 base nibble
    else
      let value ←
        match exceptions with
        | some e => e.value? slot
        | none => some none
      let fallback ← Word.add 8 base token
      return value.getD fallback
  | .six cells => cells.get? slot
  | .eight cells => cells.get? slot

def byteCount? (width : Width) (p : Precision) : Option Nat :=
  match width with
  | .four => do Word.shl Word.index 1 (← Nat.psub p.lg 1)
  | .six => do
    let size ← Word.shl Word.index 1 p.lg
    Word.add Word.index ((← Word.mul Word.index size 3) / 4) 1
  | .eight => Word.shl Word.index 1 p.lg

theorem byteCount?_eq (width : Width) (p : Precision) : byteCount? width p = some (byteCount width p.size) := by
  have few := p.size_le
  have coarse := p.four_le
  have size : Word.shl Word.index 1 p.lg = some p.size := Word.shl_lg p
  cases width with
  | four =>
    have double : p.size = 2 * 2 ^ (p.lg - 1) := by
      rw [← Nat.pow_succ', Nat.succ_eq_add_one, Nat.sub_add_cancel (by omega), Precision.size]
    have half : p.size / 2 = 2 ^ (p.lg - 1) := by omega
    have less : Nat.psub p.lg 1 = some (p.lg - 1) := Nat.psub_eq_sub (by omega)
    have fine := p.le_twentyOne
    rw [byteCount?, less, byteCount, Nibbles.byteCount, half]
    exact Word.shl_one (by rw [Word.index]; omega)
  | six =>
    have triple : Word.mul Word.index p.size 3 = some (p.size * 3) := Word.mul_eq (by rw [Word.index]; omega)
    rw [byteCount?, size, Option.bind_eq_bind, Option.bind_some, triple]
    exact Word.add_eq (by rw [Word.index]; omega)
  | eight => exact size

/-- Registers of which each can be read: their bytes are all there, and a search for an exception ends. -/
structure Scannable (p : Precision) (r : Registers) : Prop where
  sized : r.bytes.size = byteCount r.width p.size
  searchable : ∀ e ∈ r.exceptions?, e.precision = p ∧ e.table.Searchable

theorem get?_eq (scannable : r.Scannable p) (small : base ≤ Coupon.maxValue) (inside : slot < p.size) :
    r.get? base slot = some (r.get base slot) := by
  obtain ⟨sized, searchable⟩ := scannable
  cases r with
  | four cells exceptions =>
    have low := cells.get_lt slot
    have distance : Word.add 8 base (cells.get slot) = some (base + cells.get slot) :=
      Word.add_eq (by rw [Coupon.maxValue] at small; omega)
    have fallback : Word.add 8 base token = some (base + token) :=
      Word.add_eq (by rw [Coupon.maxValue] at small; rw [token]; omega)
    rw [get?, get, Nibbles.get?_eq sized p.size_mod_four inside, Option.bind_eq_bind, Option.bind_some]
    dsimp only
    split_ifs with near
    · exact distance
    · cases exceptions with
      | none =>
        rw [fallback]
        rfl
      | some e =>
        obtain ⟨rfl, ends⟩ := searchable e rfl
        dsimp only
        rw [Exceptions.value?_eq ends inside, fallback]
        rfl
  | six cells => exact Sextets.get?_eq sized p.size_mod_four p.size_le inside
  | eight cells => exact Octets.get?_eq (sized ▸ inside)

end Registers

namespace Tally

variable {tracked : Bool} {value : Nat} {values done rest : List Nat}

/-- The number `2 ^ (-value)`, put together from its bits. -/
def halfPow? (value : Nat) : Option Float := do
  let exponent ← Nat.psub 1023 value
  let bits ← Word.shl 64 exponent 52
  return Float.ofBits (UInt64.ofNat bits)

/-- Takes one more value into a scan. -/
def visit? (tracked : Bool) (t : Tally Float) (value : Nat) : Option (Tally Float) := do
  let part ← halfPow? value
  let t := if value < divide then { t with low := t.low + part } else { t with high := t.high + part }
  if value = t.base then return { t with atBase := ← Word.add 32 t.atBase 1 }
  else if tracked ∧ value < t.base then return { t with base := value, atBase := 1 }
  else return t

/-- The base of a scan that has seen no value yet. -/
def unseen : Nat := 255

/-- The tally of values that are visited one after the other. -/
def scan? (tracked : Bool) (values : List Nat) : Option (Tally Float) := do
  let t ← values.foldlM (visit? tracked) ⟨if tracked then unseen else 0, 0, Scalar.ofNat 0, Scalar.ofNat 0⟩
  return if t.base = unseen then { t with base := 0 } else t

theorem halfPow?_eq (small : value ≤ 1023) : halfPow? value = some (Scalar.halfPow value) := by
  have exponent : Nat.psub 1023 value = some (1023 - value) := Nat.psub_eq_sub small
  have bits : Word.shl 64 (1023 - value) 52 = some (((1023 - value) <<< 52) % 2 ^ 64) := if_pos (by decide)
  have same : UInt64.ofNat (((1023 - value) <<< 52) % 2 ^ 64) = UInt64.ofNat (1023 - value) <<< 52 := by
    rw [UInt64.ofNat_mod_size, UInt64.ofNat_shiftLeft _ _ (by decide)]
    rfl
  rw [halfPow?, exponent, Option.bind_eq_bind, Option.bind_some, bits, Option.bind_some, same]
  rfl

/-- The base that a scan has come to. -/
def reached (tracked : Bool) (done : List Nat) : Nat := if tracked then done.foldl min unseen else 0

/-- A scan on its way, after the values of `done`. -/
def scanned (tracked : Bool) (done : List Nat) : Tally Float :=
  ⟨reached tracked done, done.count (reached tracked done), sumOf (done.filter (· < divide)),
    sumOf (done.filter (divide ≤ ·))⟩

private theorem add_scanned (tracked : Bool) (done : List Nat) (value : Nat) :
    (scanned tracked done).add value =
      { scanned tracked (done ++ [value]) with
        base := reached tracked done
        atBase := done.count (reached tracked done) } := by
  simp only [add, scanned, List.filter_append]
  by_cases low : value < divide
  · rw [if_pos low]
    simp [low, Nat.not_le_of_lt low, sumOf_concat]
  · rw [if_neg low]
    simp [low, Nat.le_of_not_lt low, sumOf_concat]

private theorem reached_concat (done : List Nat) (value : Nat) :
    reached true (done ++ [value]) = min (reached true done) value := List.foldl_append

private theorem reached_le (member : value ∈ done) : reached true done ≤ value := by
  have least : (unseen :: done).min? = some (reached true done) := List.min?_cons'
  exact (List.min?_eq_some_iff.mp least).2 value (List.mem_cons_of_mem _ member)

/-- A base that stays is counted on, and a new one is counted from the value that brought it. -/
private theorem reached_cases (tracked : Bool) (done : List Nat) (value : Nat) :
    (value = reached tracked done ∧ reached tracked (done ++ [value]) = reached tracked done) ∨
    ((tracked = true ∧ value < reached tracked done) ∧ reached tracked (done ++ [value]) = value ∧
      done.count value = 0) ∨
    (value ≠ reached tracked done ∧ ¬ (tracked = true ∧ value < reached tracked done) ∧
      reached tracked (done ++ [value]) = reached tracked done) := by
  cases tracked with
  | false =>
    have same : reached false (done ++ [value]) = reached false done := rfl
    by_cases here : value = reached false done
    · exact .inl ⟨here, same⟩
    · exact .inr (.inr ⟨here, by simp, same⟩)
  | true =>
    rw [reached_concat]
    rcases Nat.lt_trichotomy value (reached true done) with less | here | more
    · have absent : value ∉ done := fun member => absurd (reached_le member) (Nat.not_le_of_lt less)
      exact .inr (.inl ⟨⟨rfl, less⟩, Nat.min_eq_right (Nat.le_of_lt less), List.count_eq_zero.mpr absent⟩)
    · exact .inl ⟨here, Nat.min_eq_left (Nat.le_of_eq here.symm)⟩
    · exact .inr (.inr ⟨Nat.ne_of_gt more, fun below => Nat.lt_asymm more below.2,
        Nat.min_eq_left (Nat.le_of_lt more)⟩)

theorem visit?_scanned (tracked : Bool) (small : value < unseen) (few : done.length < 2 ^ 31) :
    visit? tracked (scanned tracked done) value = some (scanned tracked (done ++ [value])) := by
  have part : halfPow? value = some (Scalar.halfPow value) :=
    halfPow?_eq (Nat.le_trans (Nat.le_of_lt small) (by decide))
  have sums : (if value < divide then
      { scanned tracked done with low := (scanned tracked done).low + Scalar.halfPow value }
    else { scanned tracked done with high := (scanned tracked done).high + Scalar.halfPow value }) =
      (scanned tracked done).add value := rfl
  have counted : Word.add 32 (done.count (reached tracked done)) 1 =
      some (done.count (reached tracked done) + 1) :=
    Word.add_eq (by have := List.count_le_length (a := reached tracked done) (l := done); omega)
  rw [visit?, part, Option.bind_eq_bind, Option.bind_some, sums, add_scanned]
  dsimp only
  rcases reached_cases tracked done value with ⟨here, same⟩ | ⟨less, same, fresh⟩ | ⟨apart, above, same⟩
  · rw [if_pos here, counted]
    simp [scanned, same, List.count_append, ← here]
  · rw [if_neg (Nat.ne_of_lt less.2), if_pos less]
    simp [scanned, same, List.count_append, fresh]
  · rw [if_neg apart, if_neg above]
    simp [scanned, same, List.count_append, apart]

/-- Values that are small enough are scanned to the end. The values visited so far move from `rest` to
`done`. -/
private theorem visits_scanned (tracked : Bool) (done : List Nat) (small : ∀ value ∈ rest, value < unseen)
    (few : done.length + rest.length ≤ 2 ^ 31) :
    rest.foldlM (visit? tracked) (scanned tracked done) = some (scanned tracked (done ++ rest)) := by
  induction rest generalizing done with
  | nil => rw [List.append_nil]; rfl
  | cons value rest ih =>
    rw [List.length_cons] at few
    have first := visit?_scanned tracked (small value List.mem_cons_self) (show done.length < 2 ^ 31 by omega)
    have others := ih (done ++ [value]) (fun other member => small other (List.mem_cons_of_mem _ member))
      (by rw [List.length_append, List.length_singleton]; omega)
    rw [List.foldlM_cons, first, Option.bind_eq_bind, Option.bind_some, others, List.append_assoc]
    rfl

theorem scan?_eq (tracked : Bool) (small : ∀ value ∈ values, value < unseen) (few : values.length ≤ 2 ^ 31) :
    scan? tracked values = some (scan tracked values) := by
  have start : (⟨if tracked then unseen else 0, 0, Scalar.ofNat 0, Scalar.ofNat 0⟩ : Tally Float) =
      scanned tracked [] := by cases tracked <;> rfl
  have all := visits_scanned tracked [] small (by rwa [List.length_nil, Nat.zero_add])
  rw [List.nil_append] at all
  rw [scan?, start, all, Option.bind_eq_bind, Option.bind_some]
  refine congrArg some ?_
  cases tracked with
  | false => rfl
  | true =>
    cases values with
    | nil => rfl
    | cons value rest =>
      have base : (value :: rest).min?.getD 0 = reached true (value :: rest) := by
        rw [List.min?_cons', Option.getD_some, reached, if_pos rfl, List.foldl_cons,
          Nat.min_eq_right (Nat.le_of_lt (small value List.mem_cons_self))]
      have seen : (scanned true (value :: rest)).base ≠ unseen :=
        Nat.ne_of_lt (Nat.lt_of_le_of_lt (reached_le List.mem_cons_self) (small value List.mem_cons_self))
      rw [if_neg seen, scan, if_pos rfl, base]
      rfl

end Tally

namespace RegisterArray

variable {a : RegisterArray Float}

def values? (a : RegisterArray Float) : Option (List Nat) := do
  let size ← Word.shl 32 1 a.precision.lg
  (List.range size).mapM (a.registers.get? a.tally.base)

theorem values?_eq (scannable : a.registers.Scannable a.precision) (small : a.tally.base ≤ Coupon.maxValue) :
    a.values? = some a.values := by
  rw [values?, Word.shl_lg, Option.bind_eq_bind, Option.bind_some]
  refine mapM_of_forall (fun slot member => ?_)
  exact Registers.get?_eq scannable small (List.mem_range.mp member)

end RegisterArray

namespace Exceptions

variable {p : Precision} {cells : Nibbles}

def tokens? (p : Precision) (cells : Nibbles) : Option Nat := do
  let size ← Word.shl 32 1 p.lg
  let nibbles ← (List.range size).mapM cells.get?
  return nibbles.countP (· = Registers.token)

theorem tokens?_eq (sized : cells.bytes.size = Nibbles.byteCount p.size) :
    tokens? p cells = some ((List.range p.size).countP (cells.get · = Registers.token)) := by
  have nibbles : (List.range p.size).mapM cells.get? = some ((List.range p.size).map cells.get) :=
    mapM_of_forall (fun slot member => Nibbles.get?_eq sized p.size_mod_four (List.mem_range.mp member))
  rw [tokens?, Word.shl_lg, Option.bind_eq_bind, Option.bind_some, nibbles, Option.bind_eq_bind, Option.bind_some,
    List.countP_map]
  rfl

end Exceptions

end DistinctCount
