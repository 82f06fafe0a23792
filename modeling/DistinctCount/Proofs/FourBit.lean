import DistinctCount.Proofs.Dyadic
import DistinctCount.Proofs.Recovery
import DistinctCount.Proofs.Subtractions

namespace DistinctCount

namespace RegisterArray

/-- Arrays that come of single changes, of promotions, of values taken over, of upkeep, and of their own
images. -/
inductive Arises : RegisterArray Float → Prop
  | zeros (p : Precision) (width : Width) : Arises (zeros p width)
  | ofValues {p : Precision} {values : List Nat} (width : Width) (historic : Float) :
    values.length = p.size → (∀ value ∈ values, value ≤ Coupon.maxValue) →
    Arises (ofValues p width values historic)
  | promoted (p : Precision) (width : Width) (coupons : List Coupon) (count : Nat) :
    Arises (Store.promoted p width coupons count)
  | update {a : RegisterArray Float} (c : Coupon) (inOrder : Bool) : Arises a → Arises (a.update c inOrder)
  | copyAs {a : RegisterArray Float} (width : Width) : Arises a → Arises (a.copyAs width)
  | settle {a : RegisterArray Float} : Arises a → Arises a.settle
  | primed {a : RegisterArray Float} : Arises a → Arises a.primed
  | reload {a b : RegisterArray Float} {flags : Flags} {rest : List UInt8} : Arises a →
    flags.pending = a.isPending →
    (read ⟨a.precision, a.lgTableSize, flags, a.tally.base, .registers, a.width⟩).run
      (a.body flags.layout) = .ok (b, rest) →
    Arises b

/-- An exact array whose tally is put off only by the last register that left the base. -/
structure Drained {α : Type} [Scalar α] (a : RegisterArray α) : Prop extends Exact a where
  drained : a.isPending = true → a.tally.atBase = 0

section

variable {α : Type} [Scalar α] {a : RegisterArray α} {p : Precision} {width : Width}

theorem Exact.toDrained (exact : a.Exact) (settled : a.isPending = false) : a.Drained :=
  ⟨exact, fun pending => by rw [settled] at pending; cases pending⟩

theorem drained_ofValues {values : List Nat} (historic : α) (sized : values.length = p.size)
    (bounded : ∀ value ∈ values, value ≤ Coupon.maxValue) :
    (ofValues p width values historic).Drained :=
  (exact_ofValues historic sized bounded).toDrained rfl

theorem drained_settle (exact : a.Exact) : a.settle.Drained := by
  obtain ⟨_, settled, _⟩ := settle_spec exact.toSound
  exact (exact_settle exact).toDrained (settled_iff.mp settled)

theorem drained_primed (drained : a.Drained) : a.primed.Drained := by
  have alike : a.primed.isPending = a.isPending ∧ a.primed.tally = a.tally := by
    unfold primed
    split
    · rename_i pending
      exact ⟨by simp [isPending, pending], rfl⟩
    · exact ⟨rfl, rfl⟩
  refine ⟨exact_primed drained.toExact, fun pending => ?_⟩
  rw [alike.2]
  exact drained.drained (alike.1 ▸ pending)

theorem drained_copyAs (drained : a.Drained) (width : Width) : (a.copyAs width).Drained := by
  unfold copyAs
  split_ifs
  · exact drained
  · exact drained_ofValues a.historic a.length_values (fits_values drained.toEncoded).bounded

variable [Tally.ExactSums α]

/-- A change puts the tally off only once none is left at the base. -/
theorem drained_update (exact : a.Exact) (c : Coupon) (inOrder : Bool) : (a.update c inOrder).Drained := by
  refine ⟨exact_update exact c inOrder, fun pending => ?_⟩
  rcases update_cases exact.toSound c inOrder with ⟨_, same⟩ | ⟨_, raised⟩
  · rw [same] at pending ⊢
    exact (drained_settle exact).drained pending
  · rw [raised, isPending_raise, decide_eq_true_eq] at pending
    rw [raised]
    exact pending.2.1

theorem drained_promoted (p : Precision) (width : Width) (coupons : List Coupon) (count : Nat) :
    (Store.promoted p width coupons count : RegisterArray α).Drained := by
  have all : (coupons.foldl (fun a c => a.update c false) (zeros p width : RegisterArray α)).Drained := by
    rcases List.eq_nil_or_concat coupons with rfl | ⟨front, last, rfl⟩
    · exact (exact_zeros p width).toDrained rfl
    · rw [List.concat_eq_append, List.foldl_append]
      exact drained_update (exact_updateAll (exact_zeros p width) front false) last false
  exact ⟨Store.exact_promoted p width coupons count, all.drained⟩

end

theorem Arises.drained {a : RegisterArray Float} (arises : a.Arises) : a.Drained := by
  induction arises with
  | zeros p width => exact (exact_zeros p width).toDrained rfl
  | ofValues width historic sized bounded => exact drained_ofValues historic sized bounded
  | promoted p width coupons count => exact drained_promoted p width coupons count
  | update c inOrder _ known => exact drained_update known.toExact c inOrder
  | copyAs width _ known => exact drained_copyAs known width
  | settle _ known => exact drained_settle known.toExact
  | primed _ known => exact drained_primed known
  | @reload a b flags rest _ pending loaded known =>
    obtain ⟨again, reads, exact, twin, _⟩ := reads_read known.toExact flags pending
    have whole := reads []
    rw [List.append_nil, loaded] at whole
    cases whole
    refine ⟨exact, fun waits => ?_⟩
    rw [twin.tally]
    exact known.drained (twin.pending ▸ waits)

section

variable {α : Type} [Scalar α] {a : RegisterArray α} {cells : Nibbles} {exceptions : Option Exceptions}

/-- What four-bit registers say of the values, each view in terms of the others. -/
structure Relative (a : RegisterArray α) (cells : Nibbles) (exceptions : Option Exceptions) : Prop where
  base_le : ∀ slot < a.precision.size, a.tally.base ≤ a.get slot
  inline : ∀ slot < a.precision.size, cells.get slot < Registers.token →
    a.get slot = a.tally.base + cells.get slot
  covered : Registers.Covered a.precision a.tally.base cells exceptions
  held : ∀ slot value, (slot, value) ∈ Exceptions.bindingsOf exceptions → a.get slot = value
  count : a.registers.exceptionCount = (List.range a.precision.size).countP (cells.get · = Registers.token)
  settled : a.isPending = false → (∃ slot < a.precision.size, a.get slot = a.tally.base) ∧
    1 ≤ a.tally.atBase ∧ a.tally.atBase = a.values.count a.tally.base
  pending : a.isPending = true → a.tally.atBase = 0

theorem Drained.relative (drained : a.Drained) (four : a.registers = .four cells exceptions) :
    a.Relative cells exceptions := by
  have packed := drained.registers.packed
  have read (slot : Nat) : a.get slot = (Registers.four cells exceptions).get a.tally.base slot := by
    rw [← four]
    rfl
  rw [four] at packed
  have agrees : Registers.Agrees a.precision a.tally.base cells exceptions := packed
  constructor
  case base_le => exact fun slot _ => drained.base_le_get slot
  case inline =>
    intro slot _ small
    rw [read, Registers.get_four, if_pos small]
  case covered => exact agrees.covered
  case held =>
    intro slot value member
    exact (read slot).trans (agrees.get_held (agrees.mem_bindings_iff.mp member)).2
  case count => rw [four, agrees.covered.countP_token]
  case settled =>
    intro settled
    obtain ⟨base, atBase⟩ := drained.settled (settled_iff.mpr settled)
    have attained : ∃ slot < a.precision.size, a.get slot = a.tally.base := by
      rw [base]
      refine a.scan_base_spec.2.1 ?_
      rw [width, four]
      rfl
    refine ⟨attained, ?_, ?_⟩
    · obtain ⟨slot, inside, least⟩ := attained
      exact atBase_pos drained.toSound (settled_iff.mpr settled) inside least
    · rw [atBase, scan_atBase, base]
  case pending => exact drained.drained

/-- No operation stops at a subtraction. -/
structure Unstopped (a : RegisterArray α) : Prop where
  update : ∀ c inOrder, a.update? c inOrder = some (a.update c inOrder)
  settle : a.settle? = some a.settle
  copyAs : ∀ width, a.copyAs? width = some (a.copyAs width)
  ofValues : ∀ width values (historic : α),
    ofValues? a.precision width values historic = some (.ofValues a.precision width values historic)
  promoted : ∀ width coupons count, promoted? a.precision width coupons count =
    some (Store.promoted a.precision width coupons count : RegisterArray α)

end

/-- Whatever four-bit registers went through, their views agree, upkeep changes no value, and no change
counts below zero. -/
theorem relative_of_arises {a : RegisterArray Float} {cells : Nibbles} {exceptions : Option Exceptions}
    (arises : a.Arises) (four : a.registers = .four cells exceptions) :
    a.Relative cells exceptions ∧ (∀ slot < a.precision.size, a.settle.get slot = a.get slot) ∧
      a.Unstopped := by
  have drained := arises.drained
  obtain ⟨_, _, _, _, read⟩ := settle_spec drained.toSound
  exact ⟨drained.relative four, read, update?_eq drained.toSound, settle?_eq a, copyAs?_eq a,
    ofValues?_eq a.precision, promoted?_eq a.precision⟩

/-- A value of twenty is an exception from the base zero. -/
theorem relative_exception :
    let a : RegisterArray Float := (zeros ⟨4, by decide, by decide⟩ .four).update (.pack 3 20) true
    a.Arises ∧ ∃ cells exceptions, a.registers = .four cells exceptions ∧ a.Relative cells exceptions ∧
      a.Unstopped := by
  intro a
  have arises : a.Arises := .update _ _ (.zeros _ _)
  have four : a.registers.width = .four := by
    obtain ⟨zero, width, _⟩ := sound_zeros (α := Float) ⟨4, by decide, by decide⟩ .four
    exact (update_spec zero (.pack 3 20) true).2.2.1.trans width
  cases registers : a.registers with
  | four cells exceptions =>
    obtain ⟨relative, _, unstopped⟩ := relative_of_arises arises registers
    exact ⟨arises, cells, exceptions, rfl, relative, unstopped⟩
  | six | eight =>
    rw [registers] at four
    cases four

end RegisterArray

end DistinctCount
