import DistinctCount.Proofs.Upkeep
import DistinctCount.SketchUnion

/-! No estimate has a say in what a sketch keeps. With all sums and histories erased, a sketch goes through
the same steps: its tables and registers do not depend on the scalars that it computes with. -/

namespace DistinctCount

/-- A scalar of which nothing is known. -/
structure Erased where
deriving DecidableEq

instance : Scalar Erased where
  add _ _ := ⟨⟩
  sub _ _ := ⟨⟩
  mul _ _ := ⟨⟩
  div _ _ := ⟨⟩
  neg _ := ⟨⟩
  le _ _ := True
  lt _ _ := False
  ofNat _ := ⟨⟩
  decimal _ _ := ⟨⟩
  halfPow _ := ⟨⟩
  decideLE _ _ := inferInstanceAs (Decidable True)
  decideLT _ _ := inferInstanceAs (Decidable False)

section

variable {α β : Type}

def Tally.erase (t : Tally α) : Tally Erased := ⟨t.base, t.atBase, ⟨⟩, ⟨⟩⟩

def Upkeep.map (f : Tally α → Tally β) : Upkeep α → Upkeep β
  | .settled => .settled
  | .pending scanned => .pending (scanned.map f)

def RegisterArray.erase (a : RegisterArray α) : RegisterArray Erased :=
  ⟨a.precision, a.registers, a.tally.erase, ⟨⟩, a.upkeep.map Tally.erase⟩

def Store.erase : Store α → Store Erased
  | .list coupons width => .list coupons width
  | .set coupons width => .set coupons width
  | .registers array => .registers array.erase

/-- What is left of a sketch without its sums and its history: tables, registers and flags. -/
def Sketch.erase (s : Sketch α) : Sketch Erased :=
  ⟨s.precision, s.seed, s.outOfOrder, s.store.erase⟩

def SketchUnion.erase (u : SketchUnion α) : SketchUnion Erased := ⟨u.ceiling, u.merged.erase⟩

namespace RegisterArray

theorem isPending_erase (a : RegisterArray α) : a.erase.isPending = a.isPending := by
  obtain ⟨p, registers, tally, historic, upkeep⟩ := a
  cases upkeep <;> rfl

theorem erase_lift (a : RegisterArray α) (slot value : Nat) :
    (a.lift slot value).erase = a.erase.lift slot value := by
  unfold lift
  rw [apply_ite erase]
  rfl

theorem erase_mergeSlots (a source : RegisterArray α) :
    (a.mergeSlots source).erase = a.erase.mergeSlots source.erase :=
  (List.foldl_hom erase (fun a _ => (a.erase_lift _ _).symm)).symm

theorem erase_merge (a source : RegisterArray α) : (a.merge source).erase = a.erase.merge source.erase := by
  let stale (array : RegisterArray Erased) : RegisterArray Erased := { array with upkeep := .pending none }
  have slots := erase_mergeSlots a source
  obtain ⟨p, registers, tally, historic, upkeep⟩ := a
  obtain ⟨q, registers', tally', historic', upkeep'⟩ := source
  cases registers <;> cases registers'
  -- only here are whole arrays compared at once, and only at the same precision
  case eight.eight cells others =>
    let source : RegisterArray α := ⟨q, .eight others, tally', historic', upkeep'⟩
    have maxima := apply_ite erase (p = q) ⟨p, .eight (cells.maxima others), tally, historic, upkeep⟩
      (mergeSlots ⟨p, .eight cells, tally, historic, upkeep⟩ source)
    rw [slots] at maxima
    exact congrArg stale maxima
  all_goals exact congrArg stale slots

end RegisterArray

theorem Store.exists_of_erase_eq_registers {s : Store α} {array : RegisterArray Erased}
    (alike : s.erase = .registers array) : ∃ whole, s = .registers whole ∧ whole.erase = array := by
  cases s with
  | list | set => cases alike
  | registers whole => exact ⟨whole, rfl, Store.registers.inj alike⟩

end

variable {α : Type} [Scalar α]

namespace RegisterArray

theorem erase_primed (a : RegisterArray α) : a.primed.erase = a.erase.primed := by
  obtain ⟨p, registers, tally, historic, upkeep⟩ := a
  cases upkeep with
  | settled => rfl
  | pending scanned => cases scanned <;> rfl

theorem erase_settle (a : RegisterArray α) : a.settle.erase = a.erase.settle := by
  obtain ⟨p, registers, tally, historic, upkeep⟩ := a
  cases upkeep with
  | settled => rfl
  | pending scanned => cases scanned <;> rfl

theorem erase_raise (a : RegisterArray α) (slot old new : Nat) :
    (a.raise slot old new).erase = a.erase.raise slot old new := by
  obtain ⟨p, registers, tally, historic, upkeep⟩ := a
  simp only [raise, erase, Tally.erase, Tally.base_replace, Tally.atBase_replace]
  split_ifs <;> rfl

theorem erase_update (a : RegisterArray α) (c : Coupon) (inOrder : Bool) :
    (a.update c inOrder).erase = a.erase.update c inOrder := by
  rw [update_eq, update_eq, ← erase_settle, apply_ite erase, apply_ite erase, erase_raise]
  rfl

theorem erase_updateAll (a : RegisterArray α) (coupons : List Coupon) (inOrder : Bool) :
    (coupons.foldl (fun a c => a.update c inOrder) a).erase =
      coupons.foldl (fun a c => a.update c inOrder) a.erase :=
  (List.foldl_hom erase (fun a c => (erase_update a c inOrder).symm)).symm

theorem erase_copyAs (a : RegisterArray α) (width : Width) :
    (a.copyAs width).erase = a.erase.copyAs width := by
  obtain ⟨p, registers, tally, historic, upkeep⟩ := a
  unfold copyAs
  rw [apply_ite erase]
  cases upkeep <;> rfl

theorem erase_folded (a : RegisterArray α) (p : Precision) (width : Width) :
    (a.folded p width).erase = a.erase.folded p width := by
  unfold folded
  rw [apply_ite erase, erase_copyAs]
  rfl

end RegisterArray

namespace Store

theorem erase_promoted (p : Precision) (width : Width) (coupons : List Coupon) (count : Nat) :
    (promoted p width coupons count : RegisterArray α).erase = promoted p width coupons count := by
  have run := RegisterArray.erase_updateAll (RegisterArray.zeros p width : RegisterArray α) coupons false
  exact congrArg (fun array : RegisterArray Erased => { array with historic := ⟨⟩ }) run

theorem erase_update (s : Store α) (p : Precision) (c : Coupon) (inOrder : Bool) :
    (s.update p c inOrder).erase = s.erase.update p c inOrder := by
  cases s with
  | list coupons width =>
    simp only [update, updateList, apply_ite erase]
    simp only [erase, erase_promoted]
  | set coupons width =>
    simp only [update, updateSet, apply_ite erase]
    simp only [erase, erase_promoted]
  | registers array => exact congrArg Store.registers (array.erase_update c inOrder)

theorem erase_copyAs (s : Store α) (width : Width) : (s.copyAs width).erase = s.erase.copyAs width := by
  cases s with
  | list | set => rfl
  | registers array => exact congrArg Store.registers (array.erase_copyAs width)

theorem erase_settle (s : Store α) : s.settle.erase = s.erase.settle := by
  cases s with
  | list | set => rfl
  | registers array => exact congrArg Store.registers array.erase_settle

theorem erase_primed (s : Store α) : s.primed.erase = s.erase.primed := by
  cases s with
  | list | set => rfl
  | registers array => exact congrArg Store.registers array.erase_primed

end Store

namespace Sketch

theorem erase_addCoupon (s : Sketch α) (c : Coupon) : (s.addCoupon c).erase = s.erase.addCoupon c :=
  congrArg (Sketch.mk s.precision s.seed s.outOfOrder) (s.store.erase_update s.precision c !s.outOfOrder)

theorem erase_addCoupons (s : Sketch α) (coupons : List Coupon) :
    (s.addCoupons coupons).erase = s.erase.addCoupons coupons :=
  (List.foldl_hom erase (fun s c => (s.erase_addCoupon c).symm)).symm

theorem erase_copyAs (s : Sketch α) (width : Width) : (s.copyAs width).erase = s.erase.copyAs width :=
  congrArg (Sketch.mk s.precision s.seed s.outOfOrder) (s.store.erase_copyAs width)

theorem erase_primed (s : Sketch α) : s.primed.erase = s.erase.primed :=
  congrArg (Sketch.mk s.precision s.seed s.outOfOrder) s.store.erase_primed

theorem erase_settled (s : Sketch α) : (Snapshot.take s).toSketch.erase = (Snapshot.take s.erase).toSketch :=
  congrArg (Sketch.mk s.precision s.seed s.outOfOrder) s.store.erase_settle

end Sketch

namespace SketchUnion

theorem erase_coarsened (s : Sketch α) (p : Precision) : (coarsened s p).erase = coarsened s.erase p := by
  obtain ⟨q, seed, outOfOrder, store⟩ := s
  cases store with
  | list | set => exact Sketch.erase_addCoupons _ _
  | registers array =>
    exact congrArg (fun array => Sketch.mk p seed outOfOrder (.registers array)) (array.erase_folded p .eight)

theorem erase_absorbRegisters (store : Store α) (p : Precision) (source : RegisterArray α) :
    (absorbRegisters store p source).erase = absorbRegisters store.erase p source.erase := by
  cases store with
  | list | set =>
    refine (RegisterArray.erase_updateAll _ _ _).trans ?_
    rw [RegisterArray.erase_folded]
    rfl
  | registers array => exact array.erase_merge source

theorem erase_absorb (s : Sketch α) (source : Store α) :
    (absorb s source).erase = absorb s.erase source.erase := by
  cases source with
  | list | set => exact Sketch.erase_addCoupons _ _
  | registers array =>
    exact congrArg (fun array => Sketch.mk s.precision s.seed true (.registers array))
      (erase_absorbRegisters s.store s.precision array)

/-- Whether a merge succeeds does not depend on scalars, nor do the tables that come of it. -/
theorem erase_merge (u : SketchUnion α) (s : Sketch α) : (u.merge s).map erase = u.erase.merge s.erase := by
  let p := min u.merged.precision s.precision
  have absorbed := erase_absorb (if p = u.merged.precision then u.merged else coarsened u.merged p) s.store
  rw [apply_ite Sketch.erase, erase_coarsened] at absorbed
  unfold merge
  rw [apply_ite (Except.map erase)]
  exact if_congr Iff.rfl rfl (congrArg (fun merged => Except.ok (SketchUnion.mk u.ceiling merged)) absorbed)

theorem merge_congr {β : Type} [Scalar β] {u : SketchUnion α} {v : SketchUnion β} {s : Sketch α}
    {t : Sketch β} (ceiling : u.ceiling = v.ceiling) (merged : u.merged.erase = v.merged.erase)
    (alike : s.erase = t.erase) : (u.merge s).map erase = (v.merge t).map erase := by
  rw [erase_merge, erase_merge, alike, erase, erase, ceiling, merged]

end SketchUnion

end DistinctCount
