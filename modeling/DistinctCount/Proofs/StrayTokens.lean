import DistinctCount.Proofs.AcceptedRegisters
import Mathlib.Order.Bounds.Basic

/-! Tokens that no exception belongs to. Counts of tokens and exceptions are compared while an image is read,
and exceptions with their tokens, but not tokens with their exceptions. With assertions on, no sketch comes
from an image that leaves a token over; with assertions off, one does exactly if a compact image lists an
entry that looks free, or an updatable one repeats a register. -/

namespace DistinctCount

open Reader (Gives)

namespace Registers

variable {bytes rest : List UInt8} {preamble : Preamble} {p : Precision} {cells : Nibbles}
  {exceptions : Option Exceptions} {count : Nat}

/-- If there are no more exceptions than tokens, and each token has one, they are of different registers. -/
private theorem nodup_slots_of_found
    (found : ∀ slot < p.size, cells.get slot = token → lookup exceptions slot ≠ none)
    (few : (Exceptions.bindingsOf exceptions).length ≤ (List.range p.size).countP (cells.get · = token)) :
    ((Exceptions.bindingsOf exceptions).map Prod.fst).Nodup ∧
      (Exceptions.bindingsOf exceptions).length = (List.range p.size).countP (cells.get · = token) := by
  have distinct : ((List.range p.size).filter (cells.get · = token)).Nodup := List.nodup_range.filter _
  have subset : (List.range p.size).filter (cells.get · = token) ⊆
      (Exceptions.bindingsOf exceptions).map Prod.fst := by
    intro slot member
    obtain ⟨inside, marked⟩ := List.mem_filter.mp member
    obtain ⟨value, held⟩ :=
      Option.ne_none_iff_exists'.mp (found slot (List.mem_range.mp inside) (of_decide_eq_true marked))
    exact List.mem_map.mpr ⟨(slot, value), mem_bindings_of_lookup held, rfl⟩
  rw [List.countP_eq_length_filter] at few ⊢
  have perm := (distinct.subperm subset).perm_of_length_le (by rwa [List.length_map])
  exact ⟨perm.nodup_iff.mp distinct, by rw [perm.length_eq, List.length_map]⟩

/-- Registers of an image are covered as soon as each token has its exception. -/
theorem covered_iff_found (given : Gives (read preamble count) bytes (.four cells exceptions) rest) :
    Covered preamble.precision preamble.count cells exceptions ↔
      ∀ slot < preamble.precision.size, cells.get slot = token → lookup exceptions slot ≠ none := by
  constructor
  · intro covered slot inside marked
    obtain ⟨value, member⟩ := (covered.token_iff slot inside).mp marked
    rw [(covered.found slot value).mpr member]
    exact Option.some_ne_none value
  · intro found
    obtain ⟨_, taken, passed⟩ := exceptions_of_read given
    obtain ⟨tokens, _⟩ := Exceptions.tokens_of_checkAgainst passed
    refine (covered_iff_of_read given).mpr ⟨fun compact index inside => ?_, fun updatable => ?_⟩
    · rw [compact] at taken
      rcases Exceptions.exists_read_of_readCompact taken with ⟨_, zero⟩ | ⟨e, _, rfl, _, read⟩
      · rw [tokens, zero] at inside
        cases inside
      · have most : e.bindings.length ≤ count := by
          have bound := Nat.le_trans (Exceptions.length_bindings_of_read read) List.countP_le_length
          rwa [List.length_map, List.length_range] at bound
        have length : e.bindings.length = count := (nodup_slots_of_found found (tokens ▸ most)).2.trans tokens
        apply Exceptions.taken_of_length_bindings read (by rw [length, List.length_map, List.length_range])
        exact List.mem_map.mpr ⟨index, List.mem_range.mpr (tokens ▸ inside), rfl⟩
    · rw [updatable] at taken
      rcases Exceptions.adopted_of_readUpdatable taken with ⟨rfl, _⟩ | ⟨e, rfl, same, adopted⟩
      · exact List.nodup_nil
      · have few : e.bindings.length ≤ (List.range preamble.precision.size).countP (cells.get · = token) := by
          rw [tokens, ← same, adopted.counted]
        exact (nodup_slots_of_found found few).1

theorem isStray_iff {slot : Nat} : (four cells exceptions).isStray slot = true ↔
    cells.get slot = token ∧ lookup exceptions slot = none := by
  simp [isStray, lookup]

end Registers

namespace RegisterArray

variable {bytes rest : List UInt8} {preamble : Preamble} {a b : RegisterArray Float} {slots : List Nat}

/-- The first register in slot order whose token has no exception. -/
def strayToken? (a : RegisterArray Float) : Option StrayToken :=
  ((List.range a.precision.size).find? a.registers.isStray).map StrayToken.mk

/-- Where no value is too large, nothing but a stray token ends the search for one. -/
theorem findTooLarge_eq (bounded : ∀ slot ∈ slots, a.get slot ≤ Coupon.maxValue) :
    a.findTooLarge slots =
      ((slots.find? a.registers.isStray).map StrayToken.mk).elim (.ok none) .error := by
  induction slots with
  | nil => rfl
  | cons slot rest ih =>
    rw [findTooLarge, getAsserted, List.find?_cons]
    cases a.registers.isStray slot with
    | true => rfl
    | false =>
      have small : ¬ Coupon.maxValue < a.get slot := Nat.not_lt_of_le (bounded slot List.mem_cons_self)
      have later := ih (fun other member => bounded other (List.mem_cons_of_mem slot member))
      change (if Coupon.maxValue < a.get slot then _ else _) = _
      rw [if_neg small]
      exact later

/-- Registers that are accepted without assertions are accepted with them, or a stray token stops the program. -/
theorem gives_readAsserting (given : Gives (read preamble) bytes a rest) :
    ∃ rest, Gives (readAsserting preamble) bytes (a.strayToken?.elim (.ok a) .error) rest := by
  obtain ⟨b, mid, parts, accepted⟩ := given.bind
  obtain ⟨⟨precision, registers, tally⟩, bounded, _⟩ := described_of_accept accepted
  have searched : b.findTooLarge (List.range b.precision.size) = a.strayToken?.elim (.ok none) .error := by
    rw [strayToken?, precision, registers]
    refine findTooLarge_eq (fun slot member => bounded _ ?_)
    rw [values, precision]
    refine List.mem_map.mpr ⟨slot, member, ?_⟩
    rw [get, get, registers, tally]
  cases stray : a.strayToken? with
  | none =>
    rw [stray] at searched
    refine ⟨rest, parts.andThen ?_⟩
    rw [searched]
    exact accepted.andThen rfl
  | some slot =>
    rw [stray] at searched
    refine ⟨mid, parts.andThen ?_⟩
    rw [searched]
    rfl

theorem gives_of_readAsserting (given : Gives (readAsserting preamble) bytes (.ok a) rest) :
    Gives (read preamble) bytes a rest := by
  obtain ⟨b, mid, parts, given⟩ := given.bind
  split at given
  · obtain ⟨same, _⟩ := given.pure
    cases same
  · obtain ⟨c, last, accepted, given⟩ := given.bind
    obtain ⟨same, rfl⟩ := given.pure
    cases same
    exact parts.andThen accepted

end RegisterArray

namespace Store

variable {bytes rest : List UInt8} {preamble : Preamble} {s : Store Float}

def strayToken? : Store Float → Option StrayToken
  | .registers a => a.strayToken?
  | _ => none

theorem gives_readAsserting (given : Gives (read preamble) bytes s rest) :
    ∃ rest, Gives (readAsserting preamble) bytes (s.strayToken?.elim (.ok s) .error) rest := by
  obtain ⟨_, mid, allowed, given⟩ := given.bind
  unfold readAsserting
  cases mode : preamble.mode with
  | list =>
    simp only [mode] at given allowed ⊢
    obtain ⟨list, rfl, _⟩ := exists_list_of_readList given
    exact ⟨rest, allowed.andThen (given.andThen rfl)⟩
  | set =>
    simp only [mode] at given allowed ⊢
    obtain ⟨set, rfl, _⟩ := exists_set_of_readSet given
    exact ⟨rest, allowed.andThen (given.andThen rfl)⟩
  | registers =>
    simp only [mode] at given allowed ⊢
    obtain ⟨a, last, read, given⟩ := given.bind
    obtain ⟨rfl, rfl⟩ := given.pure
    obtain ⟨after, asserted⟩ := RegisterArray.gives_readAsserting read
    refine ⟨after, allowed.andThen (asserted.andThen ?_)⟩
    rw [strayToken?]
    cases a.strayToken? <;> rfl

theorem gives_of_readAsserting (given : Gives (readAsserting preamble) bytes (.ok s) rest) :
    Gives (read preamble) bytes s rest := by
  obtain ⟨_, mid, allowed, given⟩ := given.bind
  unfold read
  cases mode : preamble.mode with
  | list | set =>
    simp only [mode] at given allowed ⊢
    obtain ⟨other, last, read, given⟩ := given.bind
    obtain ⟨same, rfl⟩ := given.pure
    cases same
    exact allowed.andThen read
  | registers =>
    simp only [mode] at given allowed ⊢
    obtain ⟨outcome, last, read, given⟩ := given.bind
    obtain ⟨same, rfl⟩ := given.pure
    cases outcome with
    | error stray => cases same
    | ok a =>
      cases same
      exact allowed.andThen ((RegisterArray.gives_of_readAsserting read).andThen rfl)

end Store

namespace Sketch

variable {seed : UInt32} {bytes : List UInt8} {t : Sketch Float}

/-- A sketch that comes from an image without assertions comes from it with them, unless it has a stray token. -/
theorem ofImageAsserting_of_ofImage (accepted : ofImage seed bytes = .ok t) :
    ofImageAsserting seed bytes = .ok (t.store.strayToken?.elim (.ok t) .error) := by
  obtain ⟨known, rest, checked, given⟩ := gives_of_checked accepted
  obtain ⟨preamble, mid, first, given⟩ := given.bind
  obtain ⟨s, last, read, given⟩ := given.bind
  obtain ⟨rfl, rfl⟩ := given.pure
  obtain ⟨after, asserted⟩ := Store.gives_readAsserting read
  let t : Sketch Float := ⟨preamble.precision, known, preamble.flags.outOfOrder, s⟩
  have whole : Gives (readAsserting known) bytes (s.strayToken?.elim (.ok t) .error) after := by
    refine first.andThen (asserted.andThen ?_)
    cases s.strayToken? <;> rfl
  exact checked_of_gives checked whole

theorem ofImage_of_ofImageAsserting (accepted : ofImageAsserting seed bytes = .ok (.ok t)) :
    ofImage seed bytes = .ok t := by
  obtain ⟨known, rest, checked, given⟩ := gives_of_checked accepted
  obtain ⟨preamble, mid, first, given⟩ := given.bind
  obtain ⟨outcome, last, read, given⟩ := given.bind
  obtain ⟨same, rfl⟩ := given.pure
  cases outcome with
  | error stray => cases same
  | ok s =>
    cases same
    exact checked_of_gives checked (first.andThen ((Store.gives_of_readAsserting read).andThen rfl))

end Sketch

/-- An entry of the table behind the four-bit registers of an image. -/
def Exceptions.entryOf (p : Precision) (bytes : List UInt8) (index : Nat) : Coupon :=
  Reader.couponAt bytes.toArray (RegisterArray.headerSize + Nibbles.byteCount p.size + 4 * index)

namespace RegisterArray

private theorem couponAt_drop (bytes : List UInt8) (start position : Nat) :
    Reader.couponAt (bytes.drop start).toArray position = Reader.couponAt bytes.toArray (start + position) := by
  simp [Reader.couponAt, Array.getD_eq_getD_getElem?, Nat.add_assoc]

variable {bytes : List UInt8} {a : RegisterArray Float} {seed : UInt32} {t : Sketch Float} {cells : Nibbles}
  {exceptions : Option Exceptions}

private theorem isStray_iff (four : a.registers = .four cells exceptions) (slot : Nat) :
    a.registers.isStray slot = true ↔
      cells.get slot = Registers.token ∧ Registers.lookup exceptions slot = none := by
  rw [four, Registers.isStray_iff]

theorem strayToken?_eq_none_iff (four : a.registers = .four cells exceptions) :
    a.strayToken? = none ↔
      ∀ slot < a.precision.size, cells.get slot = Registers.token → Registers.lookup exceptions slot ≠ none := by
  rw [strayToken?, Option.map_eq_none_iff, List.find?_eq_none]
  simp only [List.mem_range, isStray_iff four, not_and, ne_eq]

theorem strayToken?_eq_some_iff (four : a.registers = .four cells exceptions) {slot : Nat} :
    a.strayToken? = some ⟨slot⟩ ↔
      IsLeast {slot | slot < a.precision.size ∧ cells.get slot = Registers.token ∧
        Registers.lookup exceptions slot = none} slot := by
  rw [strayToken?, Option.map_eq_some_iff]
  constructor
  · rintro ⟨_, found, same⟩
    cases same
    obtain ⟨hit, inside, earlier⟩ := List.find?_range_eq_some.mp found
    refine ⟨⟨List.mem_range.mp inside, (isStray_iff four slot).mp hit⟩, fun other ⟨_, missing⟩ => ?_⟩
    by_contra before
    have passed := earlier other (Nat.lt_of_not_le before)
    rw [(isStray_iff four other).mpr missing] at passed
    cases passed
  · rintro ⟨⟨inside, missing⟩, least⟩
    have hit := (isStray_iff four slot).mpr missing
    refine ⟨slot, List.find?_range_eq_some.mpr ⟨hit, List.mem_range.mpr inside, fun other before => ?_⟩, rfl⟩
    have passed : ¬ a.registers.isStray other = true := by
      intro stray
      have below := Nat.lt_trans before inside
      exact Nat.not_le_of_lt before (least ⟨below, (isStray_iff four other).mp stray⟩)
    simpa using passed

/-- The exceptions of an image that is accepted, with or without assertions, are its tokens' own, as many as
there are tokens and each with a value that needs it, so that no register is read without its exception: all
this if and only if a compact image lists no entry that looks free, and an updatable one repeats no register in
its table. With assertions on, a sketch comes from the image in just this case. Otherwise the first register
whose token has no exception stops the program. -/
theorem covered_iff_of_ofImage
    (accepted : Sketch.ofImage seed bytes = .ok t ∨ Sketch.ofImageAsserting seed bytes = .ok (.ok t))
    (registers : t.store = .registers a) (four : a.registers = .four cells exceptions) :
    ((Registers.Covered a.precision a.tally.base cells exceptions ∧
        a.registers.exceptionCount = (List.range a.precision.size).countP (cells.get · = Registers.token) ∧
        ∀ slot < a.precision.size, cells.get slot = Registers.token →
          Registers.lookup exceptions slot = some (a.get slot)) ↔
      (Sketch.layoutOf bytes = .compact →
        ∀ index < (List.range a.precision.size).countP (cells.get · = Registers.token),
          Exceptions.entryOf a.precision bytes index ≠ Coupon.empty) ∧
      (Sketch.layoutOf bytes = .updatable → ((Exceptions.bindingsOf exceptions).map Prod.fst).Nodup)) ∧
    (Sketch.ofImageAsserting seed bytes = .ok (.ok t) ↔
      Registers.Covered a.precision a.tally.base cells exceptions) ∧
    ∀ slot, Sketch.ofImageAsserting seed bytes = .ok (.error ⟨slot⟩) ↔
      IsLeast {slot | slot < a.precision.size ∧ cells.get slot = Registers.token ∧
        Registers.lookup exceptions slot = none} slot := by
  have accepted : Sketch.ofImage seed bytes = .ok t := accepted.elim id Sketch.ofImage_of_ofImageAsserting
  have asserted := Sketch.ofImageAsserting_of_ofImage accepted
  rw [registers, Store.strayToken?] at asserted
  obtain ⟨preamble, _, _, layout, _, given⟩ := Sketch.exists_preamble_of_ofImage accepted
  obtain ⟨_, given⟩ := read_of_store registers given
  obtain ⟨⟨precision, base⟩, _, _, _, count, _, given⟩ := described_of_read given
  rw [four] at given
  have exact := Registers.covered_iff_of_read given
  have found := Registers.covered_iff_found given
  rw [layout, ← precision, ← base] at exact
  rw [← precision, ← base] at found
  simp only [couponAt_drop, ← Nat.add_assoc] at exact
  rw [show Exceptions.entryOf a.precision bytes = fun index => Reader.couponAt bytes.toArray
    (headerSize + Nibbles.byteCount a.precision.size + 4 * index) from rfl]
  refine ⟨⟨fun all => exact.mp all.1, fun conditions => ?_⟩, ?_, fun slot => ?_⟩
  · have covered := exact.mpr conditions
    refine ⟨covered, ?_, fun slot inside marked => ?_⟩
    · rw [covered.countP_token, four]
    · obtain ⟨value, member⟩ := (covered.token_iff slot inside).mp marked
      have held := (covered.found slot value).mpr member
      have read : a.get slot = value := by
        rw [get, four, Registers.get_four, if_neg (by rw [marked]; exact Nat.lt_irrefl _), held]
        rfl
      rw [held, read]
  · rw [asserted, found, ← strayToken?_eq_none_iff four]
    cases a.strayToken? with
    | none => exact iff_of_true rfl rfl
    | some stray => exact iff_of_false (fun equal => by cases equal) (Option.some_ne_none stray)
  · rw [asserted, ← strayToken?_eq_some_iff four]
    cases a.strayToken? with
    | none => exact iff_of_false (fun equal => by cases equal) (fun equal => by cases equal)
    | some stray => simp

/-- A compact image of sixteen registers, of which the first has a token, with this exception. -/
def firstToken (entry : List UInt8) : List UInt8 :=
  [10, 1, 7, 4, 2, 0x28, 0, 2] ++ List.replicate 28 0 ++ [1, 0, 0, 0] ++ [0x0f] ++ List.replicate 7 0 ++ entry

/-- A whole table of the exceptions of sixteen registers, of which the first two have a token. -/
def firstTokens (first second : List UInt8) : List UInt8 :=
  [10, 1, 7, 4, 2, 0x20, 0, 2] ++ List.replicate 28 0 ++ [2, 0, 0, 0] ++ [0xff] ++ List.replicate 7 0 ++
    first ++ second ++ List.replicate 8 0

set_option maxRecDepth 4000 in
/-- Two tokens with an exception each. -/
theorem covered_two_tokens :
    ∃ t a cells exceptions,
      Sketch.ofImage Seed.standard.value (firstTokens [0, 0, 0, 80] [1, 0, 0, 84]) = .ok t ∧
      t.store = .registers a ∧ a.registers = .four cells exceptions ∧
        Registers.Covered a.precision a.tally.base cells exceptions ∧
          Registers.lookup exceptions 1 = some (a.get 1) ∧ a.get 1 = 21 ∧
            Sketch.ofImageAsserting Seed.standard.value (firstTokens [0, 0, 0, 80] [1, 0, 0, 84]) =
              .ok (.ok t) := by
  have read : ∃ t a cells exceptions,
      Sketch.ofImage Seed.standard.value (firstTokens [0, 0, 0, 80] [1, 0, 0, 84]) = .ok t ∧
      t.store = .registers a ∧ a.registers = .four cells exceptions ∧
        a.precision.size = 16 ∧ cells.get 1 = Registers.token ∧ a.get 1 = 21 ∧
          (Exceptions.bindingsOf exceptions).map Prod.fst = [0, 1] := by
    rw [Sketch.ofImage, Seed.check_value]
    exact ⟨_, _, _, _, rfl, rfl, rfl, rfl, rfl, rfl, rfl⟩
  obtain ⟨t, a, cells, exceptions, accepted, registers, four, sixteen, marked, value, slots⟩ := read
  obtain ⟨sound, asserted, _⟩ := covered_iff_of_ofImage (.inl accepted) registers four
  obtain ⟨covered, _, found⟩ := sound.mpr
    ⟨fun compact => absurd compact (by decide), fun _ => slots ▸ (by decide)⟩
  have inside : 1 < a.precision.size := by
    rw [sixteen]
    decide
  exact ⟨t, a, cells, exceptions, accepted, registers, four, covered, found 1 inside marked, value,
    asserted.mpr covered⟩

set_option maxRecDepth 4000 in
/-- A token without an exception is accepted if an entry looks free, and if another token's exception is
repeated in its place. The register then reads as if the token were a distance. With assertions on, the program
stops at it. -/
theorem uncovered_token_accepted :
    (∃ t a cells exceptions, Sketch.ofImage Seed.standard.value (firstToken [0, 0, 0, 0]) = .ok t ∧
      t.store = .registers a ∧ a.registers = .four cells exceptions ∧
        cells.get 0 = Registers.token ∧ Registers.lookup exceptions 0 = none ∧
          a.get 0 = a.tally.base + Registers.token ∧
            Sketch.ofImageAsserting Seed.standard.value (firstToken [0, 0, 0, 0]) = .ok (.error ⟨0⟩)) ∧
    ∃ t a cells exceptions,
      Sketch.ofImage Seed.standard.value (firstTokens [0, 0, 0, 80] [0, 0, 0, 80]) = .ok t ∧
      t.store = .registers a ∧ a.registers = .four cells exceptions ∧
        cells.get 1 = Registers.token ∧ Registers.lookup exceptions 1 = none ∧
          a.get 1 = a.tally.base + Registers.token ∧
            Sketch.ofImageAsserting Seed.standard.value (firstTokens [0, 0, 0, 80] [0, 0, 0, 80]) =
              .ok (.error ⟨1⟩) := by
  constructor
  · rw [Sketch.ofImage, Sketch.ofImageAsserting, Seed.check_value]
    exact ⟨_, _, _, _, rfl, rfl, rfl, rfl, rfl, rfl, rfl⟩
  · rw [Sketch.ofImage, Sketch.ofImageAsserting, Seed.check_value]
    exact ⟨_, _, _, _, rfl, rfl, rfl, rfl, rfl, rfl, rfl⟩

end RegisterArray

end DistinctCount
