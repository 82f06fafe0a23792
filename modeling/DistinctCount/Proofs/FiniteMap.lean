import DistinctCount.Proofs.Fillings
import Mathlib.Data.Finset.Card
import Mathlib.Order.Bounds.Basic

namespace DistinctCount.Exceptions

/-- Binds a register that is unbound, and tells whether it was. -/
def bind? (e : Exceptions) (slot value : Nat) : Option (Exceptions × Bool) := do
  match ← e.search? slot with
  | .vacant _ => return (← e.insert? slot value, true)
  | _ => return (e, false)

/-- Overwrites the value of a register that is bound, and tells whether it was. -/
def change? (e : Exceptions) (slot value : Nat) : Option (Exceptions × Bool) := do
  match ← e.search? slot with
  | .found index =>
    let _entry ← e.table.entries[index]?
    return ({ e with table := e.table.replace index (Coupon.pack slot value) }, true)
  | _ => return (e, false)

/-- The entry that the search for a register visits after some steps. -/
def visit (e : Exceptions) (slot steps : Nat) : Coupon := e.table.entry (e.table.path slot steps)

/-- A call that binds a register, or one that changes what is bound to it. -/
inductive Call where
  | insert (slot value : Nat)
  | replace (slot value : Nat)
deriving DecidableEq

namespace Call

def slot : Call → Nat
  | insert slot _ => slot
  | replace slot _ => slot

def value : Call → Nat
  | insert _ value => value
  | replace _ value => value

/-- The register exists, and the value is one that a coupon can have. -/
def Admissible (p : Precision) (call : Call) : Prop :=
  call.slot < p.size ∧ 1 ≤ call.value ∧ call.value ≤ Coupon.maxValue

instance (p : Precision) (call : Call) : Decidable (call.Admissible p) :=
  inferInstanceAs (Decidable (_ ∧ _ ∧ _))

def run? (e : Exceptions) : Call → Option (Exceptions × Bool)
  | insert slot value => e.bind? slot value
  | replace slot value => e.change? slot value

def apply (e : Exceptions) : Call → Exceptions
  | insert slot value => e.insert slot value
  | replace slot value => e.replace slot value

/-- A register is bound if it was not, and what is bound to it changes if it was. -/
def takes (held : Nat → Option Nat) : Call → Bool
  | insert slot _ => (held slot).isNone
  | replace slot _ => (held slot).isSome

def after (held : Nat → Option Nat) (call : Call) : Nat → Option Nat :=
  if call.takes held then Function.update held call.slot (some call.value) else held

end Call

variable {e : Exceptions} {p : Precision} {slot value : Nat} {call : Call} {calls : List Call}
  {held : Nat → Option Nat}

/-- What registers hold after calls that found none of them bound. -/
def heldAfter (calls : List Call) : Nat → Option Nat := calls.foldl Call.after fun _ => none

/-- What calls make of new exceptions, one after the other. -/
def ran? (p : Precision) (calls : List Call) : Option Exceptions := do
  calls.foldlM (fun e call => return (← call.run? e).1) (← empty? p)

theorem insert_of_held {old : Nat} (bound : e.get? slot = some old) (value : Nat) : e.insert slot value = e := by
  rw [insert, contains, bound]
  rfl

theorem replace_of_free (free : e.get? slot = none) (value : Nat) : e.replace slot value = e := by
  unfold replace
  split
  · rename_i index found
    rw [get?, found] at free
    cases free
  · rfl

theorem Sound.filling (sound : e.Sound) : e.Filling e.precision e.count where
  sized := sound.keyed.size_entries
  occupied := Nat.le_of_eq sound.keyed.count_eq.symm
  precision := rfl
  few := Nat.le_refl _
  load := sound.load
  least := sound.least
  needed := sound.needed

theorem Sound.searchable (sound : e.Sound) : e.table.Searchable := sound.filling.searchable (count_le sound.keyed)

theorem Sound.count_lt (sound : e.Sound) (inside : slot < e.precision.size) (free : e.get? slot = none) :
    e.count < e.precision.size := by
  have one : Storable slot 1 := storable_of_pos Nat.one_pos (by decide)
  obtain ⟨sound', added, same⟩ := insert_spec sound inside one free
  have most := count_le sound'.keyed
  rw [count_eq sound'.keyed, added.length_eq, List.length_cons, ← count_eq sound.keyed, same] at most
  exact most

theorem bind?_eq (sound : e.Sound) (inside : slot < e.precision.size) (value : Nat) :
    e.bind? slot value = some (e.insert slot value, (e.get? slot).isNone) := by
  have ran := search?_eq sound.searchable inside
  rw [bind?, ran, Option.bind_eq_bind, Option.bind_some]
  cases result : e.search slot with
  | vacant index =>
    have free : e.get? slot = none := by rw [get?, result]
    have absent : e.contains slot = false := by rw [contains, free]; rfl
    rw [(insert?_spec sound.filling (sound.count_lt inside free) inside value absent).1, free]
    rfl
  | found index =>
    have bound : e.get? slot = some (e.table.entry index).value := by rw [get?, result]
    rw [insert_of_held bound, bound]
    rfl
  | exhausted => exact absurd result (CouponTable.search_ne_exhausted sound.searchable)

theorem change?_eq (sound : e.Sound) (inside : slot < e.precision.size) (value : Nat) :
    e.change? slot value = some (e.replace slot value, (e.get? slot).isSome) := by
  have ran := search?_eq sound.searchable inside
  rw [change?, ran, Option.bind_eq_bind, Option.bind_some]
  cases result : e.search slot with
  | found index =>
    have below := (CouponTable.search_found_iff.mp result).1.lt_size
    have read := CouponTable.getElem?_entries sound.searchable.sized below
    have bound : e.get? slot = some (e.table.entry index).value := by rw [get?, result]
    rw [replace, result, bound]
    dsimp only
    rw [read]
    rfl
  | vacant index =>
    have free : e.get? slot = none := by rw [get?, result]
    rw [replace_of_free free, free]
    rfl
  | exhausted => exact absurd result (CouponTable.search_ne_exhausted sound.searchable)

theorem run?_eq (sound : e.Sound) (inside : call.slot < e.precision.size) :
    call.run? e = some (call.apply e, call.takes e.get?) := by
  cases call with
  | insert slot value => exact bind?_eq sound inside value
  | replace slot value => exact change?_eq sound inside value

theorem apply_of_not_takes (idle : call.takes e.get? = false) : call.apply e = e := by
  cases call with
  | insert slot value =>
    cases bound : e.get? slot with
    | some old => exact insert_of_held bound value
    | none =>
      rw [Call.takes, bound] at idle
      cases idle
  | replace slot value =>
    cases bound : e.get? slot with
    | none => exact replace_of_free bound value
    | some old =>
      rw [Call.takes, bound] at idle
      cases idle

/-- Exceptions that are in order, and of which each register holds what is told. -/
structure Holding (p : Precision) (held : Nat → Option Nat) (e : Exceptions) : Prop extends Sound e where
  precision : e.precision = p
  reads : ∀ slot, e.get? slot = held slot

theorem holding_empty (p : Precision) : (empty p).Holding p fun _ => none where
  toSound := sound_empty p
  precision := rfl
  reads := get?_empty p

theorem Holding.insert (holding : e.Holding p held) (inside : slot < p.size) (storable : Storable slot value) :
    (e.insert slot value).Holding p (Call.after held (.insert slot value)) := by
  obtain ⟨sound, rfl, reads⟩ := holding
  cases state : held slot with
  | some old =>
    have same : Call.after held (.insert slot value) = held := by simp [Call.after, Call.takes, state]
    rw [insert_of_held ((reads slot).trans state), same]
    exact ⟨sound, rfl, reads⟩
  | none =>
    have free := (reads slot).trans state
    obtain ⟨sound', _, precision⟩ := insert_spec sound inside storable free
    have read := get?_insert sound.serviceable inside storable free
    refine ⟨sound', precision, fun other => ?_⟩
    rw [read, reads]
    simp [Call.after, Call.takes, state, Function.update_apply, Call.slot, Call.value]

theorem Holding.replace (holding : e.Holding p held) (inside : slot < p.size) (storable : Storable slot value) :
    (e.replace slot value).Holding p (Call.after held (.replace slot value)) := by
  obtain ⟨sound, rfl, reads⟩ := holding
  cases state : held slot with
  | none =>
    have same : Call.after held (.replace slot value) = held := by simp [Call.after, Call.takes, state]
    rw [replace_of_free ((reads slot).trans state), same]
    exact ⟨sound, rfl, reads⟩
  | some old =>
    have bound := (reads slot).trans state
    obtain ⟨sound', _, precision⟩ := replace_spec sound inside storable bound
    have read := get?_replace sound.serviceable inside storable bound
    refine ⟨sound', precision, fun other => ?_⟩
    rw [read, reads]
    simp [Call.after, Call.takes, state, Function.update_apply, Call.slot, Call.value]

theorem Call.Admissible.storable (admissible : call.Admissible p) : Storable call.slot call.value :=
  storable_of_pos admissible.2.1 admissible.2.2

/-- A call does not stop, answers whether it took effect, and leaves what it should. -/
theorem Holding.step (holding : e.Holding p held) (admissible : call.Admissible p) :
    call.run? e = some (call.apply e, call.takes held) ∧ (call.apply e).Holding p (call.after held) := by
  have inside : call.slot < e.precision.size := holding.precision ▸ admissible.1
  constructor
  · rw [run?_eq holding.toSound inside, funext holding.reads]
  · cases call with
    | insert slot value => exact holding.insert admissible.1 admissible.storable
    | replace slot value => exact holding.replace admissible.1 admissible.storable

theorem Holding.run (holding : e.Holding p held) (admissible : ∀ call ∈ calls, call.Admissible p) :
    ∃ f, calls.foldlM (fun e call => return (← Call.run? e call).1) e = some f ∧
      f.Holding p (calls.foldl Call.after held) := by
  induction calls generalizing e held with
  | nil => exact ⟨e, rfl, holding⟩
  | cons call rest ih =>
    obtain ⟨ran, next⟩ := holding.step (admissible call List.mem_cons_self)
    obtain ⟨f, others, holds⟩ := ih next (fun other member => admissible other (List.mem_cons_of_mem call member))
    refine ⟨f, ?_, holds⟩
    rw [List.foldlM_cons, ran]
    exact others

theorem ran?_spec (admissible : ∀ call ∈ calls, call.Admissible p) :
    ∃ e, ran? p calls = some e ∧ e.Holding p (heldAfter calls) := by
  rw [ran?, empty?_eq]
  exact (holding_empty p).run admissible

theorem ran?_concat {f : Exceptions} {answer : Bool} (ran : ran? p calls = some e)
    (answered : call.run? e = some (f, answer)) : ran? p (calls ++ [call]) = some f := by
  rw [ran?, empty?_eq, Option.bind_eq_bind, Option.bind_some] at ran ⊢
  rw [List.foldlM_append, ran, Option.bind_eq_bind, Option.bind_some, List.foldlM_cons, answered]
  rfl

theorem Holding.mem_bindings_iff (holding : e.Holding p held) :
    (slot, value) ∈ e.bindings ↔ held slot = some value := by
  rw [← get?_eq_some_iff holding.keyed holding.toSound.room, holding.reads]

theorem Holding.count_eq (holding : e.Holding p held) :
    e.count = ((Finset.range p.size).filter fun slot => (held slot).isSome).card := by
  have registers : (e.bindings.map Prod.fst).toFinset =
      (Finset.range p.size).filter fun slot => (held slot).isSome := by
    ext slot
    simp only [List.mem_toFinset, List.mem_map, Prod.exists, exists_and_right, exists_eq_right,
      Finset.mem_filter, Finset.mem_range, Option.isSome_iff_exists, holding.mem_bindings_iff]
    constructor
    · rintro ⟨value, bound⟩
      have inside := e.slot_lt_of_mem (holding.mem_bindings_iff.mpr bound)
      exact ⟨holding.precision ▸ inside, value, bound⟩
    · rintro ⟨_, bound⟩
      exact bound
  rw [← registers, List.toFinset_card_of_nodup (nodup_slots holding.keyed), List.length_map]
  exact Exceptions.count_eq holding.keyed

/-- No smaller table than the present one would do, the first one apart. -/
theorem Sound.isLeast_lgSize (sound : e.Sound) :
    IsLeast {lgSize | lgMinSize e.precision ≤ lgSize ∧ 4 * e.count ≤ 3 * 2 ^ lgSize} e.table.lgSize := by
  constructor
  · exact ⟨sound.least, CouponTable.load_iff.mp sound.load⟩
  · rintro lgSize ⟨least, fits⟩
    rcases sound.needed with first | overloaded
    · exact first ▸ least
    · by_contra larger
      have grows : 2 ^ lgSize ≤ 2 ^ (e.table.lgSize - 1) :=
        Nat.pow_le_pow_right Nat.two_pos (Nat.le_sub_one_of_lt (Nat.lt_of_not_le larger))
      rw [CouponTable.overloads, decide_eq_true_eq] at overloaded
      omega

/-- A new binding doubles the table if it overloads it, and joins the others in either table. -/
theorem Sound.insert_free (sound : e.Sound) (inside : slot < e.precision.size) (storable : Storable slot value)
    (free : e.get? slot = none) :
    (e.insert slot value).bindings.Perm ((slot, value) :: e.bindings) ∧
      (e.insert slot value).table.lgSize =
        if CouponTable.overloads (e.count + 1) e.table.lgSize then e.table.lgSize + 1 else e.table.lgSize := by
  have absent := (get?_eq_none_iff sound.keyed sound.room).mp free
  obtain ⟨_, added, _⟩ := insert_spec sound inside storable free
  obtain ⟨kept, one, lgSize, _⟩ := place_spec sound.toKept sound.room inside storable absent
  have counted : (e.place slot value).table.count = e.count + 1 := by
    have whole := count_eq kept.keyed
    rwa [one.length_eq, List.length_cons, ← count_eq sound.keyed] at whole
  refine ⟨added, ?_⟩
  rw [Exceptions.insert, contains, free, Option.isSome_none, if_neg Bool.false_ne_true]
  dsimp only
  rw [CouponTable.isOverloaded, counted, lgSize]
  split
  · rw [(tabled_grown _).2.2.1, lgSize]
  · exact lgSize

/-- A search passes entries that are taken by other registers, and ends at the binding of the register or else
at a free entry, before it has visited more entries than there are. -/
theorem Holding.search_ends (holding : e.Holding p held) (inside : slot < p.size) :
    ∃ steps < e.table.size,
      (∀ m < steps, e.visit slot m ≠ Coupon.empty ∧ (e.visit slot m).register p.size ≠ slot) ∧
      (held slot ≠ none → (e.visit slot steps).register p.size = slot ∧
        e.search? slot = some (.found (e.table.path slot steps))) ∧
      (held slot = none → e.visit slot steps = Coupon.empty ∧
        e.search? slot = some (.vacant (e.table.path slot steps))) := by
  obtain ⟨sound, rfl, reads⟩ := holding
  have ran := search?_eq sound.searchable inside
  obtain ⟨steps, enough, passed, ends⟩ := sound.keyed.find_ends sound.room slot
  refine ⟨steps, enough, passed, ?_⟩
  rw [ran, ← reads, get?, show e.search slot = e.table.find (keying e.precision) slot from rfl]
  rcases ends with ⟨found, same, _⟩ | ⟨vacant, free, _⟩
  · rw [found]
    exact ⟨fun _ => ⟨same, rfl⟩, fun none => by cases none⟩
  · rw [vacant]
    exact ⟨fun some => absurd rfl some, fun _ => ⟨free, rfl⟩⟩

/-- However registers were bound and changed to values that a coupon can have, each reads as what it was given
last. A call answers whether it took effect, and leaves everything as it is if it did not: one that binds takes
effect on a register that is unbound, one that changes on a register that is bound. Bindings are counted and
listed once each, also after the table was doubled amid a call. The table is the smallest that is neither smaller
than the first one nor overloaded, and a search in it ends at the binding or at a free entry. None of these steps
stops. -/
theorem bindings_of_calls (admissible : ∀ call ∈ calls, call.Admissible p) :
    ∃ e, ran? p calls = some e ∧
      (∀ slot < p.size, e.value? slot = some (heldAfter calls slot)) ∧
      (∀ call : Call, call.Admissible p →
        (∃ f, call.run? e = some (f, call.takes (heldAfter calls)) ∧ ran? p (calls ++ [call]) = some f) ∧
        (call.run? e = some (e, false) ↔ call.takes (heldAfter calls) = false)) ∧
      e.count = ((Finset.range p.size).filter fun slot => (heldAfter calls slot).isSome).card ∧
      (e.bindings? = some e.bindings ∧ e.bindings.Nodup ∧
        ∀ slot value, (slot, value) ∈ e.bindings ↔ heldAfter calls slot = some value) ∧
      (∀ slot value, (Call.insert slot value).Admissible p → heldAfter calls slot = none →
        ∃ f, e.bind? slot value = some (f, true) ∧ f.bindings.Perm ((slot, value) :: e.bindings) ∧
          f.table.lgSize = if CouponTable.overloads (e.count + 1) e.table.lgSize then e.table.lgSize + 1
            else e.table.lgSize) ∧
      (IsLeast {lgSize | lgMinSize p ≤ lgSize ∧ 4 * e.count ≤ 3 * 2 ^ lgSize} e.table.lgSize ∧
        e.table.entries.size = 2 ^ e.table.lgSize ∧ e.table.lgSize ≤ p.lg + 1) ∧
      ∀ slot < p.size, ∃ steps < e.table.size,
        (∀ m < steps, e.visit slot m ≠ Coupon.empty ∧ (e.visit slot m).register p.size ≠ slot) ∧
        (heldAfter calls slot ≠ none → (e.visit slot steps).register p.size = slot ∧
          e.search? slot = some (.found (e.table.path slot steps))) ∧
        (heldAfter calls slot = none → e.visit slot steps = Coupon.empty ∧
          e.search? slot = some (.vacant (e.table.path slot steps))) := by
  obtain ⟨e, ran, holding⟩ := ran?_spec admissible
  obtain ⟨sound, precision, reads⟩ := id holding
  refine ⟨e, ran, fun slot inside => ?_, fun call fits => ⟨?_, ?_⟩, holding.count_eq,
    ⟨bindings?_eq e, nodup sound.keyed, fun slot value => holding.mem_bindings_iff⟩,
    fun slot value fits free => ?_, ⟨precision ▸ sound.isLeast_lgSize, sound.keyed.size_entries,
      precision ▸ sound.lgSize_le⟩, fun slot inside => holding.search_ends inside⟩
  · rw [value?_eq sound.searchable (precision ▸ inside), reads]
  · have answered := (holding.step fits).1
    exact ⟨call.apply e, answered, ran?_concat ran answered⟩
  · rw [(holding.step fits).1]
    constructor
    · intro same
      exact congrArg Prod.snd (Option.some.inj same)
    · intro idle
      rw [idle, apply_of_not_takes (funext reads ▸ idle)]
  · obtain ⟨answered, _⟩ := holding.step fits
    obtain ⟨added, lgSize⟩ := sound.insert_free (precision ▸ fits.1) fits.storable ((reads slot).trans free)
    refine ⟨e.insert slot value, ?_, added, lgSize⟩
    rwa [Call.takes, free] at answered

/-- Sixteen registers, of which the fourth to be bound doubles the table. -/
theorem bindings_of_calls_doubled :
    let p : Precision := ⟨4, by decide, by decide⟩
    let calls : List Call := [.insert 0 16, .insert 1 17, .replace 0 18, .insert 2 20, .insert 1 40, .replace 9 19,
      .insert 15 63, .replace 2 30]
    (∀ call ∈ calls, call.Admissible p) ∧ ∃ e, ran? p calls = some e ∧ e.value? 0 = some (some 18) ∧
      e.value? 1 = some (some 17) ∧ e.value? 2 = some (some 30) ∧ e.value? 9 = some none ∧ e.count = 4 ∧
        e.table.lgSize = 3 ∧ e.bind? 15 50 = some (e, false) ∧ e.change? 9 50 = some (e, false) := by
  intro p calls
  have admissible : ∀ call ∈ calls, call.Admissible p := by decide
  obtain ⟨e, ran, reads, answers, counted, _, _, ⟨⟨⟨_, fits⟩, least⟩, _⟩, _⟩ := bindings_of_calls admissible
  have four : e.count = 4 := counted
  refine ⟨admissible, e, ran, reads 0 (by decide), reads 1 (by decide), reads 2 (by decide), reads 9 (by decide),
    four, ?_, ?_, ?_⟩
  · apply Nat.le_antisymm
    · exact least ⟨by decide, by rw [four]; decide⟩
    · by_contra small
      have below : 2 ^ e.table.lgSize ≤ 2 ^ 2 := Nat.pow_le_pow_right Nat.two_pos (by omega)
      rw [four] at fits
      omega
  · exact ((answers (.insert 15 50) (by decide)).2).mpr rfl
  · exact ((answers (.replace 9 50) (by decide)).2).mpr rfl

/-- Six bits of a value are kept. A register that is bound to 64 is counted, but the entry looks free. -/
theorem sixty_four_not_bound :
    let p : Precision := ⟨4, by decide, by decide⟩
    let call : Call := .insert 0 64
    call.slot < p.size ∧ 1 ≤ call.value ∧ heldAfter [call] 0 = some 64 ∧
      ∃ e, ran? p [call] = some e ∧ e.value? 0 = some none ∧ e.count = 1 ∧ e.bindings? = some [] ∧
        e.change? 0 64 = some (e, false) := by
  refine ⟨by decide, by decide, rfl, _, rfl, rfl, rfl, rfl, rfl⟩

end DistinctCount.Exceptions
