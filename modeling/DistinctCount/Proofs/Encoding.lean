import DistinctCount.Registers
import DistinctCount.Proofs.Bindings
import DistinctCount.Proofs.Cells

/-! Registers of each width hold a number for each slot. For nibbles the cells, the exceptions and the
base are three views of one number, and raising a register keeps them in agreement. -/

namespace DistinctCount

variable {p : Precision} {base slot value : Nat} {cells : Nibbles} {exceptions : Option Exceptions}
  {r : Registers}

theorem Precision.size_mod_four (p : Precision) : p.size % 4 = 0 := by
  obtain ⟨k, lg⟩ : ∃ k, p.lg = k + 2 := ⟨p.lg - 2, by have := p.four_le; omega⟩
  rw [Precision.size, lg, Nat.pow_add]
  omega

namespace Registers

/-- The exception of a register, if there is one. -/
def lookup (exceptions : Option Exceptions) (slot : Nat) : Option Nat :=
  exceptions.bind (·.get? slot)

/-- Nibbles that agree with their exceptions: a token for each exception, and an exception only for
what a nibble cannot hold. -/
structure Agrees (p : Precision) (base : Nat) (cells : Nibbles) (exceptions : Option Exceptions) :
    Prop where
  size : cells.bytes.size = Nibbles.byteCount p.size
  sound : ∀ e ∈ exceptions, e.Sound ∧ e.precision = p ∧ e.bindings ≠ []
  token_iff : ∀ slot < p.size, cells.get slot = token ↔ (lookup exceptions slot).isSome
  range : ∀ slot value, lookup exceptions slot = some value →
    base + token ≤ value ∧ value ≤ Coupon.maxValue

/-- Registers that are packed as their width asks for. Only nibbles are relative to a base. -/
def Packed (p : Precision) (base : Nat) : Registers → Prop
  | .four cells exceptions => Agrees p base cells exceptions
  | .six cells => cells.bytes.size = Sextets.byteCount p.size ∧ cells.padding p.size = 0 ∧ base = 0
  | .eight cells => cells.bytes.size = p.size ∧ base = 0

structure Sound (p : Precision) (base : Nat) (r : Registers) : Prop where
  packed : r.Packed p base
  bounded : ∀ slot < p.size, r.get base slot ≤ Coupon.maxValue

theorem get_four : (four cells exceptions).get base slot =
    if cells.get slot < token then base + cells.get slot
    else (lookup exceptions slot).getD (base + token) := rfl

theorem Agrees.slot_lt (agrees : Agrees p base cells exceptions)
    (held : lookup exceptions slot = some value) : slot < p.size := by
  cases exceptions with
  | none => cases held
  | some e =>
    obtain ⟨sound, rfl, _⟩ := agrees.sound e rfl
    have member := (Exceptions.get?_eq_some_iff sound.keyed sound.room).mp held
    exact (sound.toKept.inside member).1

theorem Sound.base_le_get (sound : r.Sound p base) (slot : Nat) : base ≤ r.get base slot := by
  cases r with
  | four cells exceptions =>
    have agrees : Agrees p base cells exceptions := sound.packed
    rw [get_four]
    split_ifs with inline
    · exact Nat.le_add_right _ _
    · cases held : lookup exceptions slot with
      | none => exact Nat.le_add_right _ _
      | some value =>
        have := (agrees.range slot value held).1
        simp only [Option.getD_some]
        omega
  | six cells =>
    obtain ⟨_, _, rfl⟩ := sound.packed
    exact Nat.zero_le _
  | eight cells =>
    obtain ⟨_, rfl⟩ := sound.packed
    exact Nat.zero_le _

theorem Agrees.get_inline (agrees : Agrees p base cells exceptions) (inside : slot < p.size)
    (absent : lookup exceptions slot = none) :
    cells.get slot < token ∧ (four cells exceptions).get base slot = base + cells.get slot := by
  have apart : cells.get slot ≠ token := by
    rw [Ne, agrees.token_iff slot inside, absent]
    simp
  have inline : cells.get slot < token := by
    have : token = 15 := rfl
    have := cells.get_lt slot
    omega
  exact ⟨inline, by rw [get_four, if_pos inline]⟩

theorem Agrees.get_held (agrees : Agrees p base cells exceptions)
    (held : lookup exceptions slot = some value) :
    cells.get slot = token ∧ (four cells exceptions).get base slot = value := by
  have marked := (agrees.token_iff slot (agrees.slot_lt held)).mpr (by simp [held])
  exact ⟨marked, by rw [get_four, if_neg (by omega), held, Option.getD_some]⟩

theorem slot_half_lt (sized : cells.bytes.size = Nibbles.byteCount p.size) (inside : slot < p.size) :
    slot / 2 < cells.bytes.size := by
  have := p.size_mod_four
  rw [sized, Nibbles.byteCount]
  omega

theorem lookup_insert (kept : ∀ e ∈ exceptions, e.Serviceable ∧ e.precision = p) (inside : slot < p.size)
    (storable : Exceptions.Storable slot value) (free : lookup exceptions slot = none) :
    let added := (exceptions.getD (.empty p)).insert slot value
    (added.Serviceable ∧ added.precision = p ∧ added.bindings ≠ []) ∧
      ∀ other, lookup (some added) other = if other = slot then some value else lookup exceptions other := by
  have start : (exceptions.getD (.empty p)).Serviceable ∧ (exceptions.getD (.empty p)).precision = p ∧
      ∀ other, (exceptions.getD (.empty p)).get? other = lookup exceptions other := by
    cases exceptions with
    | none => exact ⟨(Exceptions.sound_empty p).serviceable, rfl, Exceptions.get?_empty p⟩
    | some e =>
      obtain ⟨serviceable, precision⟩ := kept e rfl
      exact ⟨serviceable, precision, fun _ => rfl⟩
  obtain ⟨serviceable, precision, alike⟩ := start
  have bound : slot < (exceptions.getD (.empty p)).precision.size := by rwa [precision]
  have absent : (exceptions.getD (.empty p)).get? slot = none := by rw [alike, free]
  obtain ⟨serviceable', perm, same⟩ := serviceable.insert_spec bound storable absent
  refine ⟨⟨serviceable', same.trans precision, ?_⟩, fun other => ?_⟩
  · intro none
    rw [none] at perm
    exact List.cons_ne_nil _ _ (List.nil_perm.mp perm)
  · rw [lookup, Option.bind_some, Exceptions.get?_insert serviceable bound storable absent, alike]

private theorem sound_insert (agrees : Agrees p base cells exceptions) (inside : slot < p.size)
    (storable : Exceptions.Storable slot value) (free : lookup exceptions slot = none) :
    ((exceptions.getD (.empty p)).insert slot value).Sound := by
  cases exceptions with
  | none =>
    have sound := Exceptions.sound_empty p
    exact (Exceptions.insert_spec sound inside storable (Exceptions.get?_empty p slot)).1
  | some e =>
    obtain ⟨sound, rfl, _⟩ := agrees.sound e rfl
    exact (Exceptions.insert_spec sound inside storable free).1

/-- Writing a register without a token: a small distance goes into the nibble, a large one among the
exceptions. -/
theorem encode_spec (agrees : Agrees p base cells exceptions) (inside : slot < p.size)
    (absent : lookup exceptions slot = none) (least : base ≤ value)
    (bound : value ≤ Coupon.maxValue) :
    (encode p base cells exceptions slot value).Packed p base ∧
      ∀ other < p.size, (encode p base cells exceptions slot value).get base other =
        if other = slot then value else (four cells exceptions).get base other := by
  have half := slot_half_lt agrees.size inside
  have fifteen : token = 15 := rfl
  unfold encode
  split_ifs with small
  · have cell (other : Nat) := cells.get_put slot other (value - base) half (by omega)
    refine ⟨⟨by rw [Nibbles.size_put, agrees.size], agrees.sound, ?_, agrees.range⟩, ?_⟩
    · intro other bound
      rw [cell]
      split_ifs with same
      · rw [same, absent]
        simp
        omega
      · exact agrees.token_iff other bound
    · intro other _
      rw [get_four, get_four, cell]
      split_ifs <;> omega
  · have large : base + token ≤ value := by omega
    have storable : Exceptions.Storable slot value := Exceptions.storable_of_pos (by omega) bound
    have added := sound_insert agrees inside storable absent
    obtain ⟨⟨_, kept⟩, looked⟩ := lookup_insert
      (fun e member => ⟨(agrees.sound e member).1.serviceable, (agrees.sound e member).2.1⟩) inside storable absent
    have cell (other : Nat) := cells.get_put slot other token half (by decide)
    refine ⟨⟨by rw [Nibbles.size_put, agrees.size], ?_, ?_, ?_⟩, ?_⟩
    · intro e member
      obtain rfl := Option.some.inj member
      exact ⟨added, kept⟩
    · intro other bound
      rw [cell, looked]
      split_ifs with same
      · simp
      · exact agrees.token_iff other bound
    · intro other held read
      rw [looked] at read
      split_ifs at read with same
      · cases read
        exact ⟨large, bound⟩
      · exact agrees.range other held read
    · intro other _
      rw [get_four, get_four, cell, looked]
      split_ifs with same
      · omega
      · rfl
      · rfl
      · rfl

private theorem replace_spec (agrees : Agrees p base cells exceptions) (inside : slot < p.size)
    {old : Nat} (held : lookup exceptions slot = some old) (large : base + token ≤ value)
    (bound : value ≤ Coupon.maxValue) :
    let replaced := exceptions.map (·.replace slot value)
    Agrees p base cells replaced ∧
      ∀ other, (four cells replaced).get base other =
        if other = slot then value else (four cells exceptions).get base other := by
  cases exceptions with
  | none => cases held
  | some e =>
    obtain ⟨sound, rfl, _⟩ := agrees.sound e rfl
    have fifteen : token = 15 := rfl
    have storable : Exceptions.Storable slot value := Exceptions.storable_of_pos (by omega) bound
    obtain ⟨sound', ⟨rest, _, after⟩, precision⟩ :=
      Exceptions.replace_spec sound inside storable held
    have looked (other : Nat) : lookup (some (e.replace slot value)) other =
        if other = slot then some value else lookup (some e) other :=
      Exceptions.get?_replace sound.serviceable inside storable held other
    refine ⟨⟨agrees.size, ?_, ?_, ?_⟩, ?_⟩
    · intro f member
      obtain rfl := Option.some.inj member
      refine ⟨sound', precision, fun none => ?_⟩
      rw [none] at after
      exact List.cons_ne_nil _ _ (List.nil_perm.mp after)
    · intro other below
      rw [agrees.token_iff other below, Option.map_some, looked]
      split_ifs with same
      · simp [same, held]
      · rfl
    · intro other read equal
      rw [Option.map_some, looked] at equal
      split_ifs at equal with same
      · cases equal
        exact ⟨large, bound⟩
      · exact agrees.range other read equal
    · intro other
      rw [Option.map_some, get_four, get_four, looked]
      split_ifs with inline same same
      · obtain ⟨marked, _⟩ := agrees.get_held held
        rw [same] at inline
        omega
      · rfl
      · rfl
      · rfl

theorem put_spec (sound : r.Sound p base) (inside : slot < p.size) (raised : r.get base slot ≤ value)
    (bound : value ≤ Coupon.maxValue) :
    (r.put p base slot value).Sound p base ∧ (r.put p base slot value).width = r.width ∧
      ∀ other < p.size, (r.put p base slot value).get base other =
        if other = slot then value else r.get base other := by
  suffices packed : (r.put p base slot value).Packed p base ∧
      (r.put p base slot value).width = r.width ∧
      ∀ other < p.size, (r.put p base slot value).get base other =
        if other = slot then value else r.get base other by
    refine ⟨⟨packed.1, fun other below => ?_⟩, packed.2⟩
    rw [packed.2.2 other below]
    split_ifs
    · exact bound
    · exact sound.bounded other below
  have limit : Coupon.maxValue = 63 := rfl
  cases r with
  | four cells exceptions =>
    have agrees : Agrees p base cells exceptions := sound.packed
    cases held : lookup exceptions slot with
    | none =>
      obtain ⟨inline, _⟩ := agrees.get_inline inside held
      have least := Nat.le_trans (sound.base_le_get slot) raised
      simp only [put, if_neg (Nat.ne_of_lt inline)]
      obtain ⟨packed, values⟩ := encode_spec agrees inside held least bound
      refine ⟨packed, ?_, values⟩
      unfold encode
      split_ifs <;> rfl
    | some old =>
      obtain ⟨marked, same⟩ := agrees.get_held held
      rw [same] at raised
      have large := (agrees.range slot old held).1
      obtain ⟨agrees', values⟩ := replace_spec agrees inside held (Nat.le_trans large raised) bound
      simp only [put, if_pos marked]
      exact ⟨agrees', rfl, fun other _ => values other⟩
  | six cells =>
    obtain ⟨size, padding, zero⟩ := sound.packed
    have fits : Sextets.index slot + 1 < cells.bytes.size :=
      size ▸ Sextets.inside_of_lt p.size_mod_four inside
    refine ⟨⟨by rw [Sextets.size_put, size], ?_, zero⟩, rfl, fun other _ => ?_⟩
    · rw [Sextets.padding_put p.size_mod_four size inside, padding]
    · exact cells.get_put slot other value fits (by omega)
  | eight cells =>
    obtain ⟨size, zero⟩ := sound.packed
    refine ⟨⟨by rw [Octets.size_put, size], zero⟩, rfl, fun other _ => ?_⟩
    exact cells.get_put slot other value (size ▸ inside) (by omega)

theorem zeros_spec (p : Precision) (width : Width) (base : Nat) (bound : base ≤ Coupon.maxValue)
    (relative : width ≠ .four → base = 0) :
    (zeros width p.size).Sound p base ∧ (zeros width p.size).width = width ∧
      ∀ slot, (zeros width p.size).get base slot = base := by
  suffices packed : (zeros width p.size).Packed p base ∧ (zeros width p.size).width = width ∧
      ∀ slot, (zeros width p.size).get base slot = base by
    exact ⟨⟨packed.1, fun slot _ => by rw [packed.2.2]; exact bound⟩, packed.2⟩
  cases width with
  | four =>
    refine ⟨⟨Nibbles.size_zeros _, by simp, ?_, by simp [lookup]⟩, rfl, fun slot => ?_⟩
    · intro slot _
      simp [Nibbles.get_zeros, token, lookup]
    · simp [zeros, get_four, Nibbles.get_zeros, token]
  | six =>
    obtain rfl := relative (by decide)
    exact ⟨⟨Sextets.size_zeros _, Sextets.padding_zeros _, rfl⟩, rfl, Sextets.get_zeros _⟩
  | eight =>
    obtain rfl := relative (by decide)
    exact ⟨⟨Octets.size_zeros _, rfl⟩, rfl, Octets.get_zeros _⟩

private theorem fill_spec (values : List Nat) (start : Nat) (sound : r.Sound p base)
    (fits : start + values.length ≤ p.size)
    (range : ∀ value ∈ values, base ≤ value ∧ value ≤ Coupon.maxValue)
    (fresh : ∀ slot, start ≤ slot → slot < p.size → r.get base slot = base) :
    let filled := (values.zipIdx start).foldl
      (fun registers (value, slot) => registers.put p base slot value) r
    filled.Sound p base ∧ filled.width = r.width ∧
      ∀ slot < p.size, filled.get base slot =
        if start ≤ slot then (values[slot - start]?).getD base else r.get base slot := by
  induction values generalizing start r with
  | nil =>
    refine ⟨sound, rfl, fun slot inside => ?_⟩
    split_ifs with behind
    · simpa using fresh slot behind inside
    · rfl
  | cons value rest ih =>
    simp only [List.length_cons] at fits
    obtain ⟨least, bound⟩ := range value (by simp)
    have inside : start < p.size := by omega
    obtain ⟨sound', width, values⟩ := put_spec sound inside
      (by rw [fresh start (Nat.le_refl _) inside]; exact least) bound
    obtain ⟨filled, width', read⟩ := ih (start + 1) sound' (by omega)
      (fun other member => range other (by simp [member]))
      (fun slot behind below => by
        rw [values slot below, if_neg (by omega)]
        exact fresh slot (by omega) below)
    refine ⟨filled, width'.trans width, fun slot below => ?_⟩
    have here := read slot below
    simp only [List.zipIdx_cons, List.foldl_cons]
    rw [here, values slot below]
    rcases Nat.lt_trichotomy slot start with before | same | behind
    · rw [if_neg (by omega), if_neg (by omega), if_neg (by omega)]
    · rw [if_neg (by omega), if_pos same, if_pos (by omega)]
      simp [same]
    · rw [if_pos (by omega), if_pos (by omega), show slot - start = slot - (start + 1) + 1 by omega,
        List.getElem?_cons_succ]

theorem ofValues_spec (width : Width) {values : List Nat} (sized : values.length = p.size)
    (bound : base ≤ Coupon.maxValue) (relative : width ≠ .four → base = 0)
    (range : ∀ value ∈ values, base ≤ value ∧ value ≤ Coupon.maxValue) :
    (ofValues width p base values).Sound p base ∧ (ofValues width p base values).width = width ∧
      ∀ slot < p.size, (ofValues width p base values).get base slot = (values[slot]?).getD 0 := by
  obtain ⟨sound, same, fresh⟩ := zeros_spec p width base bound relative
  obtain ⟨filled, width', read⟩ := fill_spec values 0 sound (by omega) range
    (fun slot _ _ => fresh slot)
  refine ⟨filled, width'.trans same, fun slot inside => ?_⟩
  rw [ofValues, read slot inside, if_pos (Nat.zero_le _), Nat.sub_zero,
    List.getElem?_eq_getElem (by omega)]
  rfl

end Registers

end DistinctCount
