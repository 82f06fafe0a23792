import DistinctCount.Proofs.Scanning
import DistinctCount.Proofs.Tolerance

namespace DistinctCount.Tally

open Binary64

/-- Sums that are whole multiples of the least powers of two, no more than binary64 numbers tell apart. -/
def Whole (t : Tally Float) : Prop :=
  ∃ low high : Nat, low ≤ 2 ^ 52 ∧ high ≤ 2 ^ 52 ∧ toRat? t.low = some ((low : ℚ) / 2 ^ 31) ∧
    toRat? t.high = some ((high : ℚ) / 2 ^ 63)

/-- What a value contributes to a part of a tally. -/
def share (high : Bool) (value : Nat) : ℚ := if inPart high value then 1 / 2 ^ value else 0

/-- Tallies that differ by the contribution of a value, with no rounding in either part. -/
def Gains (t u : Tally Float) (value : Nat) : Prop :=
  ∀ high, ∃ sum, toRat? (t.part high) = some sum ∧ toRat? (u.part high) = some (sum + share high value)

/-- A tally whose parts are the sums of some values. -/
def Tracks (t : Tally Float) (values : List Nat) : Prop :=
  ∀ high, t.part high = sumOf (values.filter (inPart high))

/-- Gives one register a new value, and the tally the change. -/
def exchange (registers : List Nat × Tally Float) (move : Nat × Nat) : List Nat × Tally Float :=
  (registers.1.set move.1 move.2, registers.2.replace (registers.1.getD move.1 0) move.2)

/-- Registers that were zero and have been given other values one after the other, and the tally that was kept
up with them. -/
def exchanged (size : Nat) (moves : List (Nat × Nat)) : List Nat × Tally Float :=
  moves.foldl exchange (List.replicate size 0, zeros size)

/-- Changes to registers that there are, to values that they can hold. -/
def Permitted (size : Nat) (moves : List (Nat × Nat)) : Prop :=
  ∀ move ∈ moves, move.1 < size ∧ move.2 ≤ Coupon.maxValue

variable {t u : Tally Float} {values others rest done : List Nat} {value old new slot size : Nat} {high : Bool}
  {registers : List Nat × Tally Float} {move : Nat × Nat} {moves : List (Nat × Nat)} {p : Precision}

theorem Tracks.of_perm (tracks : t.Tracks values) (fits : Fits values) (perm : values.Perm others) :
    t.Tracks others := by
  intro high
  rw [tracks high, sumOf_filter_perm fits perm]

theorem Tracks.remove (tracks : t.Tracks (old :: rest)) (fits : Fits (old :: rest)) :
    (t.remove old).Tracks rest := by
  intro high
  exact part_remove_eq fits (tracks high)

theorem Tracks.add (tracks : t.Tracks rest) (fits : Fits (new :: rest)) : (t.add new).Tracks (new :: rest) := by
  intro high
  exact part_add_eq fits (tracks high)

theorem tracks_zeros (few : size ≤ 2 ^ 21) : (zeros size : Tally Float).Tracks (List.replicate size 0) := by
  intro high
  exact part_zeros few high

theorem tracks_scan (tracked : Bool) (values : List Nat) : (scan tracked values : Tally Float).Tracks values := by
  intro high
  exact part_scan tracked high values

theorem tracks_scanned (tracked : Bool) (done : List Nat) : (scanned tracked done).Tracks done := by
  intro high
  cases high <;> rfl

theorem Tracks.part_eq (left : t.Tracks values) (right : u.Tracks others) (fits : Fits values)
    (perm : values.Perm others) (high : Bool) : t.part high = u.part high := by
  rw [left high, right high, sumOf_filter_perm fits perm]

theorem Tracks.sums_eq (left : t.Tracks values) (right : u.Tracks others) (fits : Fits values)
    (perm : values.Perm others) : t.low = u.low ∧ t.high = u.high :=
  ⟨left.part_eq right fits perm false, left.part_eq right fits perm true⟩

theorem Tracks.toRat?_part (tracks : t.Tracks values) (fits : Fits values) (high : Bool) :
    toRat? (t.part high) = some ((multiples high values : ℚ) / 2 ^ deepest high) := by
  have depth := deepest_le high
  rw [tracks high, sumOf_part fits, toRat?_ofDyadic (multiples_lt fits high) (by omega) (by omega), zpow_neg,
    zpow_natCast, div_eq_mul_inv]

theorem Tracks.whole (tracks : t.Tracks values) (fits : Fits values) : t.Whole :=
  ⟨multiples false values, multiples true values, multiples_le fits false, multiples_le fits true,
    tracks.toRat?_part fits false, tracks.toRat?_part fits true⟩

theorem multiples_cons (limit : value ≤ Coupon.maxValue) (high : Bool) (rest : List Nat) :
    (multiples high (value :: rest) : ℚ) / 2 ^ deepest high =
      (multiples high rest : ℚ) / 2 ^ deepest high + share high value := by
  by_cases counts : inPart high value
  · have one : (weight high value : ℚ) / 2 ^ deepest high = 1 / 2 ^ value := by
      have exact := weight_eq limit counts
      rwa [zpow_neg, zpow_natCast, zpow_neg, zpow_natCast, ← div_eq_mul_inv, ← one_div] at exact
    rw [multiples, List.filter_cons_of_pos counts, List.map_cons, List.sum_cons, Nat.cast_add, add_div, one,
      share, if_pos counts, add_comm, multiples]
  · rw [multiples, List.filter_cons_of_neg counts, share, if_neg counts, add_zero, multiples]

theorem Tracks.gains (fewer : t.Tracks rest) (more : u.Tracks (value :: rest)) (fits : Fits (value :: rest)) :
    Gains t u value := by
  intro high
  refine ⟨_, fewer.toRat?_part fits.tail high, ?_⟩
  rw [more.toRat?_part fits high, multiples_cons (fits.bounded value List.mem_cons_self)]

/-- Registers in their number and range, and the tally of their values. -/
structure Upheld (size : Nat) (registers : List Nat × Tally Float) : Prop where
  sized : registers.1.length = size
  bounded : ∀ value ∈ registers.1, value ≤ Coupon.maxValue
  tracks : registers.2.Tracks registers.1

theorem Upheld.fits (upheld : Upheld p.size registers) : Fits registers.1 :=
  ⟨upheld.sized ▸ p.size_le, upheld.bounded⟩

theorem upheld_zeros (p : Precision) : Upheld p.size (List.replicate p.size 0, zeros p.size) := by
  refine ⟨List.length_replicate, ?_, tracks_zeros p.size_le⟩
  intro value member
  rw [List.eq_of_mem_replicate member]
  exact Nat.zero_le _

/-- The values of the other registers, beside which one register is changed. -/
theorem Upheld.beside (upheld : Upheld p.size registers) (inside : slot < p.size) :
    ∃ rest, registers.1.Perm (registers.1.getD slot 0 :: rest) ∧
      ∀ new, (registers.1.set slot new).Perm (new :: rest) := by
  have place : slot < registers.1.length := by rwa [upheld.sized]
  refine ⟨registers.1.eraseIdx slot, ?_, ?_⟩
  · rw [← List.getElem_eq_getD (h := place) 0]
    exact (List.getElem_cons_eraseIdx_perm place).symm
  · intro new
    exact List.set_perm_cons_eraseIdx place new

theorem Upheld.exchange (upheld : Upheld p.size registers) (inside : move.1 < p.size)
    (limit : move.2 ≤ Coupon.maxValue) : Upheld p.size (exchange registers move) := by
  obtain ⟨rest, before, after⟩ := upheld.beside inside
  have fits := upheld.fits.of_perm before
  have fits' := fits.exchange limit
  constructor
  · exact List.length_set.trans upheld.sized
  · exact (fits'.of_perm (after move.2).symm).bounded
  · exact (((upheld.tracks.of_perm upheld.fits before).remove fits).add fits').of_perm fits' (after move.2).symm

theorem upheld_exchanged (permitted : Permitted p.size moves) : Upheld p.size (exchanged p.size moves) := by
  induction moves using List.reverseRecOn with
  | nil => exact upheld_zeros p
  | append_singleton earlier move ih =>
    have valid := permitted move (List.mem_append_right _ List.mem_cons_self)
    have before := ih (fun move member => permitted move (List.mem_append_left _ member))
    rw [exchanged, List.foldl_append, List.foldl_cons, List.foldl_nil]
    exact before.exchange valid.1 valid.2

theorem Upheld.replaces (upheld : Upheld p.size registers) (inside : slot < p.size)
    (limit : new ≤ Coupon.maxValue) :
    (registers.2.remove (registers.1.getD slot 0)).Whole ∧
      (registers.2.replace (registers.1.getD slot 0) new).Whole ∧
      Gains (registers.2.remove (registers.1.getD slot 0)) registers.2 (registers.1.getD slot 0) ∧
      Gains (registers.2.remove (registers.1.getD slot 0)) (registers.2.replace (registers.1.getD slot 0) new)
        new := by
  obtain ⟨rest, perm, _⟩ := upheld.beside inside
  have fits := upheld.fits.of_perm perm
  have fits' := fits.exchange limit
  have before := upheld.tracks.of_perm upheld.fits perm
  have between := before.remove fits
  have after := between.add fits'
  exact ⟨between.whole fits.tail, after.whole fits', between.gains before fits, between.gains after fits'⟩

theorem scanned_concat (fits : Fits (done ++ value :: rest)) (tracked : Bool) :
    visit? tracked (scanned tracked done) value = some (scanned tracked (done ++ [value])) ∧
      (scanned tracked done).Whole ∧ (scanned tracked (done ++ [value])).Whole ∧
      Gains (scanned tracked done) (scanned tracked (done ++ [value])) value := by
  have shorter : (done ++ [value]).Sublist (done ++ value :: rest) :=
    (List.singleton_sublist.mpr List.mem_cons_self).append_left done
  have fits' : Fits (done ++ [value]) := fits.sublist shorter
  have last : (done ++ [value]).Perm (value :: done) := List.perm_append_singleton value done
  have front : Fits (value :: done) := fits'.of_perm last
  have before := tracks_scanned tracked done
  have after := tracks_scanned tracked (done ++ [value])
  have small : value < unseen := Nat.lt_of_le_of_lt (front.bounded value List.mem_cons_self) (by decide)
  have few : done.length < 2 ^ 31 := Nat.lt_of_le_of_lt front.tail.few (by decide)
  exact ⟨visit?_scanned tracked small few, before.whole front.tail, after.whole fits',
    before.gains (after.of_perm fits' last) front⟩

/-- An update of an array leaves whole sums, the same as a scan would, though the base may be behind. -/
theorem whole_update {a : RegisterArray Float} (exact : a.Exact) (c : Coupon) (inOrder : Bool) :
    (a.update c inOrder).tally.Whole ∧
      ∀ high, (a.update c inOrder).tally.part high = (a.update c inOrder).scan.part high := by
  have same := RegisterArray.part_update exact c inOrder
  have tracks : (a.update c inOrder).tally.Tracks (a.update c inOrder).values := by
    intro high
    exact (same high).trans (part_scan _ high _)
  exact ⟨tracks.whole (RegisterArray.fits_values (RegisterArray.exact_update exact c inOrder).toEncoded), same⟩

/-- The sums of a tally never need rounding: not while registers are scanned, and not while a tally is kept up
with registers that change one at a time. At every step both are whole multiples of their least power of two,
also between the subtraction and the addition of a change; each step moves them by exactly the contribution of
the value. So they are, bit for bit, those of a scan of the registers in any order, and depend neither on the
order of the changes nor on the values that the registers had on the way. Arrays that coupons are put into keep
their tallies in this way. -/
theorem sums_never_round (p : Precision) :
    (∀ (tracked : Bool) (values : List Nat), values.length = p.size →
      (∀ value ∈ values, value ≤ Coupon.maxValue) →
      scan? tracked values = some (scan tracked values) ∧ (scan tracked values : Tally Float).Whole ∧
      ∀ done value rest, values = done ++ value :: rest →
        visit? tracked (scanned tracked done) value = some (scanned tracked (done ++ [value])) ∧
        (scanned tracked done).Whole ∧ (scanned tracked (done ++ [value])).Whole ∧
        Gains (scanned tracked done) (scanned tracked (done ++ [value])) value) ∧
    (∀ (moves : List (Nat × Nat)) (values : List Nat) (t : Tally Float), Permitted p.size moves →
      exchanged p.size moves = (values, t) →
      t.Whole ∧
      (∀ slot new, slot < p.size → new ≤ Coupon.maxValue →
        (t.remove (values.getD slot 0)).Whole ∧ (t.replace (values.getD slot 0) new).Whole ∧
        Gains (t.remove (values.getD slot 0)) t (values.getD slot 0) ∧
        Gains (t.remove (values.getD slot 0)) (t.replace (values.getD slot 0) new) new) ∧
      (∀ (tracked : Bool) (order : List Nat), order.Perm values →
        t.low = (scan tracked order).low ∧ t.high = (scan tracked order).high) ∧
      ∀ moves' : List (Nat × Nat), Permitted p.size moves' → (exchanged p.size moves').1.Perm values →
        t.low = (exchanged p.size moves').2.low ∧ t.high = (exchanged p.size moves').2.high) ∧
    ∀ (width : Width) (coupons : List Coupon) (c : Coupon) (inOrder : Bool),
      let a : RegisterArray Float := coupons.foldl (fun a c => a.update c inOrder) (.zeros p width)
      (a.update c inOrder).tally.Whole ∧
        ∀ high, (a.update c inOrder).tally.part high = (a.update c inOrder).scan.part high := by
  refine ⟨?_, ?_, ?_⟩
  · intro tracked values sized bounded
    have fits : Fits values := ⟨sized ▸ p.size_le, bounded⟩
    have small : ∀ value ∈ values, value < unseen :=
      fun value member => Nat.lt_of_le_of_lt (bounded value member) (by decide)
    refine ⟨scan?_eq tracked small (Nat.le_trans fits.few (by decide)), (tracks_scan tracked values).whole fits, ?_⟩
    intro done value rest split
    exact scanned_concat (split ▸ fits) tracked
  · intro moves values t permitted reached
    have upheld := upheld_exchanged permitted
    rw [reached] at upheld
    refine ⟨upheld.tracks.whole upheld.fits, ?_, ?_, ?_⟩
    · intro slot new inside limit
      exact upheld.replaces inside limit
    · intro tracked order perm
      exact upheld.tracks.sums_eq (tracks_scan tracked order) upheld.fits perm.symm
    · intro moves' permitted' perm
      exact upheld.tracks.sums_eq (upheld_exchanged permitted').tracks upheld.fits perm.symm
  · intro width coupons c inOrder a
    exact whole_update (RegisterArray.exact_updateAll (RegisterArray.exact_zeros p width) coupons inOrder) c inOrder

/-- Sixteen registers, of which one is raised twice; its neighbours come in another order, and it at once, the
second time. -/
theorem sums_never_round_sixteen :
    let p : Precision := ⟨4, by decide, by decide⟩
    let moves := [(0, 3), (5, 40), (0, 7), (9, 1)]
    let moves' := [(9, 1), (0, 7), (5, 40)]
    let (values, t) := exchanged p.size moves
    (Permitted p.size moves ∧ Permitted p.size moves') ∧
      values = [7, 0, 0, 0, 0, 40, 0, 0, 0, 1, 0, 0, 0, 0, 0, 0] ∧
      (t.remove 40).Whole ∧ Gains (t.remove 40) (t.replace 40 63) 63 ∧
      scan? false values.reverse = some (scan false values.reverse) ∧
      (t.low = (scan false values.reverse).low ∧ t.high = (scan false values.reverse).high) ∧
      t.low = (exchanged p.size moves').2.low ∧ t.high = (exchanged p.size moves').2.high := by
  intro p moves moves'
  have permitted : Permitted p.size moves := by unfold Permitted; decide
  have permitted' : Permitted p.size moves' := by unfold Permitted; decide
  obtain ⟨scans, runs, _⟩ := sums_never_round p
  obtain ⟨_, steps, scanned, same⟩ := runs moves _ _ permitted rfl
  obtain ⟨between, _, _, gains⟩ := steps 5 63 (by decide) (by decide)
  refine ⟨⟨permitted, permitted'⟩, rfl, between, gains, ?_, ?_, same moves' permitted' ?_⟩
  · exact (scans false _ (by decide) (by decide)).1
  · exact scanned false _ (List.reverse_perm _)
  · decide

end DistinctCount.Tally
