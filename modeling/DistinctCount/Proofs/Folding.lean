import DistinctCount.Proofs.WidthIndependence
import Mathlib.Data.Finset.Lattice.Fold
import Mathlib.Order.Lattice.Nat

namespace DistinctCount.RegisterArray

section

variable {α : Type} {a source : RegisterArray α} {p : Precision} {slot bound : Nat}

/-- The largest value among the registers whose slots end in the bits of a coarser slot. -/
def shared (a : RegisterArray α) (p : Precision) (slot : Nat) : Nat :=
  ((Finset.range a.precision.size).filter (· % p.size = slot)).sup a.get

theorem shared_le_iff : a.shared p slot ≤ bound ↔
    ∀ place < a.precision.size, place % p.size = slot → a.get place ≤ bound := by
  rw [shared, Finset.sup_le_iff]
  simp only [Finset.mem_filter, Finset.mem_range, and_imp]

theorem get_mergeSlots (encoded : a.Encoded) (other : source.Encoded) (inside : slot < a.precision.size) :
    (a.mergeSlots source).get slot = max (a.get slot) (source.shared a.precision slot) := by
  obtain ⟨_, _, _, bounds⟩ := mergeSlots_spec encoded other
  apply eq_of_forall_ge_iff
  intro bound
  rw [bounds slot inside, max_le_iff, shared_le_iff]

theorem foldedValues_eq (coarser : p.lg ≤ a.precision.lg) :
    a.foldedValues p = (List.range p.size).map (a.shared p) := by
  apply List.ext_getElem (by simp [length_foldedValues])
  intro slot inside _
  rw [length_foldedValues] at inside
  obtain ⟨largest, found, bounds⟩ := getElem?_foldedValues coarser inside
  obtain ⟨_, here⟩ := List.getElem?_eq_some_iff.mp found
  rw [here, List.getElem_map, List.getElem_range]
  apply eq_of_forall_ge_iff
  intro bound
  rw [bounds, shared_le_iff]

end

variable {α : Type} [Scalar α] {a source : RegisterArray α} {p q : Precision} {width width' : Width}
  {slot : Nat}

theorem get_merge (encoded : a.Encoded) (other : source.Encoded) (inside : slot < a.precision.size) :
    (a.merge source).get slot = max (a.get slot) (source.shared a.precision slot) := by
  obtain ⟨_, _, _, _, bounds⟩ := merge_spec encoded other
  apply eq_of_forall_ge_iff
  intro bound
  rw [bounds slot inside, max_le_iff, shared_le_iff]

theorem get_folded (sound : a.Sound) (width : Width) (coarser : p.lg ≤ a.precision.lg)
    (inside : slot < p.size) : (a.folded p width).get slot = a.shared p slot := by
  obtain ⟨_, _, _, bounds⟩ := folded_spec sound width coarser
  apply eq_of_forall_ge_iff
  intro bound
  rw [bounds slot inside, shared_le_iff]

/-- The slots that end in the bits of a slot are reached through those of any precision in between. -/
theorem shared_folded (sound : a.Sound) (width : Width) (finer : q.lg ≤ p.lg)
    (coarser : p.lg ≤ a.precision.lg) (slot : Nat) : (a.folded p width).shared q slot = a.shared q slot := by
  obtain ⟨_, precision, _, _⟩ := folded_spec sound width coarser
  have through (place : Nat) : place % p.size % q.size = place % q.size :=
    Nat.mod_mod_of_dvd place (Precision.size_dvd finer)
  apply eq_of_forall_ge_iff
  intro bound
  rw [shared_le_iff, shared_le_iff, precision]
  constructor
  · intro all place within same
    have between : place % p.size < p.size := Nat.mod_lt place p.size_pos
    have below := all (place % p.size) between ((through place).trans same)
    rw [get_folded sound width coarser between, shared_le_iff] at below
    exact below place within rfl
  · intro all place within same
    rw [get_folded sound width coarser within, shared_le_iff]
    intro fine within' here
    exact all fine within' (by rw [← through, here, same])

theorem copyAs_ofValues {values : List Nat} (historic : α) (sized : values.length = p.size)
    (bounded : ∀ value ∈ values, value ≤ Coupon.maxValue) :
    (ofValues p width values historic).copyAs width' = ofValues p width' values historic := by
  obtain ⟨_, same, shown⟩ := ofValues_spec width historic sized bounded
  unfold copyAs
  split_ifs with alike
  · rw [alike.1, same]
  · rw [shown]
    rfl

theorem copyAs_copyAs (encoded : a.Encoded) : (a.copyAs width).copyAs width = a.copyAs width := by
  by_cases alike : width = a.width ∧ !a.isPending
  · have same : a.copyAs width = a := if_pos alike
    rw [same, same]
  · have built : a.copyAs width = ofValues a.precision width a.values a.historic := if_neg alike
    rw [built]
    exact copyAs_ofValues a.historic a.length_values (fits_values encoded).bounded

/-- Folding twice is folding once, down to the last byte. Only a copy that is copied back to the width that
it had may lay its exceptions out anew. -/
theorem folded_folded (sound : a.Sound) (finer : q.lg ≤ p.lg) (coarser : p.lg ≤ a.precision.lg)
    (kept : q ≠ a.precision ∨ width = width') :
    (a.folded p width).folded q width' = a.folded q width' := by
  obtain ⟨_, precision, _, _⟩ := folded_spec sound width coarser
  have coarsest : q.lg ≤ a.precision.lg := finer.trans coarser
  by_cases last : q = p
  · subst last
    have again : (a.folded q width).folded q width' = (a.folded q width).copyAs width' :=
      if_pos precision.symm
    rw [again]
    by_cases whole : q = a.precision
    · rcases kept with other | rfl
      · exact absurd whole other
      · have copy : a.folded q width = a.copyAs width := if_pos whole
        rw [copy]
        exact copyAs_copyAs sound.toEncoded
    · have built (width : Width) :
          a.folded q width = ofValues q width (a.foldedValues q) (Scalar.ofNat 0) := if_neg whole
      rw [built, built]
      exact copyAs_ofValues _ (length_foldedValues a q) (foldedValues_le sound.toEncoded coarser)
  · have smaller : q.lg < p.lg := lt_of_le_of_ne finer (fun same => last (Precision.ext_lg same))
    have other : q ≠ a.precision := by
      rintro rfl
      exact absurd coarser (not_le.mpr smaller)
    have outer : (a.folded p width).folded q width' =
        ofValues q width' ((a.folded p width).foldedValues q) (Scalar.ofNat 0) :=
      if_neg (fun same => last (same.trans precision))
    have direct : a.folded q width' = ofValues q width' (a.foldedValues q) (Scalar.ofNat 0) := if_neg other
    have same : (a.folded p width).foldedValues q = a.foldedValues q := by
      have finer' : q.lg ≤ (a.folded p width).precision.lg :=
        finer.trans_eq (congrArg Precision.lg precision.symm)
      rw [foldedValues_eq coarsest, foldedValues_eq finer']
      exact List.map_congr_left (fun slot _ => shared_folded sound width finer coarser slot)
    rw [outer, direct, same]

theorem alike_folded_folded (sound : a.Sound) (width width' : Width) (finer : q.lg ≤ p.lg)
    (coarser : p.lg ≤ a.precision.lg) :
    ((a.folded p width).folded q width').Alike (a.folded q width') := by
  by_cases whole : q = a.precision
  · subst whole
    obtain rfl : p = a.precision := Precision.ext_lg (le_antisymm coarser finer)
    have copy : a.folded a.precision width = a.copyAs width := if_pos rfl
    have folded : (a.folded a.precision width).Alike a := copy ▸ alike_copyAs sound width
    exact folded.folded (folded_spec sound width coarser).1 sound width' width'
      (le_of_eq (congrArg Precision.lg folded.precision.symm))
  · rw [folded_folded sound finer coarser (.inl whole)]
    exact .refl _

/-- A source may be folded to the precision of the target before it is merged. -/
theorem alike_merge_folded (encoded : a.Encoded) (sound : source.Sound)
    (coarser : a.precision.lg ≤ source.precision.lg) (width : Width) :
    (a.merge (source.folded a.precision width)).Alike (a.merge source) := by
  obtain ⟨sound', _, _, _⟩ := folded_spec sound width coarser
  obtain ⟨_, precision, _, _, _⟩ := merge_spec encoded sound'.toEncoded
  obtain ⟨_, precision', _, _, _⟩ := merge_spec encoded sound.toEncoded
  refine ⟨precision.trans precision'.symm, values_congr (precision.trans precision'.symm) ?_, ?_⟩
  · intro slot inside
    rw [precision'] at inside
    rw [get_merge encoded sound'.toEncoded inside, get_merge encoded sound.toEncoded inside,
      shared_folded sound width le_rfl coarser]
  · rw [historic_merge, historic_merge]

/-- Whatever the widths of two arrays and whether or not their tallies are pending, a merge leaves in each
register the maximum of its own value and of all that share its bits, by either way of merging. The array
stays sound, and it does not matter whether the source was folded before, in one step or in two. -/
theorem merge_folded_maximum (sound : a.Sound) (other : source.Sound)
    (coarser : a.precision.lg ≤ source.precision.lg) :
    ((a.merge source).Sound ∧ (a.merge source).precision = a.precision ∧
      (a.merge source).width = a.width) ∧
    (∀ slot < a.precision.size,
      (a.merge source).get slot = max (a.get slot) (source.shared a.precision slot) ∧
      (a.mergeSlots source).get slot = (a.merge source).get slot) ∧
    (∀ width, (a.merge (source.folded a.precision width)).Alike (a.merge source)) ∧
    ∀ (p q : Precision) (width width' : Width), q.lg ≤ p.lg → p.lg ≤ source.precision.lg →
      ((source.folded p width).folded q width').Alike (source.folded q width') ∧
      (q ≠ source.precision ∨ width = width' →
        (source.folded p width).folded q width' = source.folded q width') := by
  obtain ⟨merged, precision, same, _, _⟩ := merge_spec sound.toEncoded other.toEncoded
  refine ⟨⟨merged, precision, same⟩, ?_, ?_, ?_⟩
  · intro slot inside
    have general := get_mergeSlots sound.toEncoded other.toEncoded inside
    have either := get_merge sound.toEncoded other.toEncoded inside
    exact ⟨either, general.trans either.symm⟩
  · exact alike_merge_folded sound.toEncoded other coarser
  · intro p q width width' finer between
    exact ⟨alike_folded_folded other width width' finer between, folded_folded other finer between⟩

/-- A nibble at its limit takes the larger of two values that a finer array of sextets holds for it. -/
theorem merge_folded_maximum_crossing :
    let a : RegisterArray Float := (zeros ⟨4, by decide, by decide⟩ .four).update (.pack 5 14) true
    let source : RegisterArray Float :=
      ((zeros ⟨5, by decide, by decide⟩ .six).update (.pack 5 9) true).update (.pack 21 20) true
    (a.Sound ∧ source.Sound ∧ a.precision.lg ≤ source.precision.lg) ∧ (a.merge source).get 5 = 20 := by
  intro a source
  have sound : a.Sound := (update_spec (sound_zeros _ _).1 _ _).1
  have other : source.Sound := (update_spec (update_spec (sound_zeros _ _).1 _ _).1 _ _).1
  have coarser : a.precision.lg ≤ source.precision.lg := by decide +kernel
  have merged := (merge_folded_maximum sound other coarser).2.1 5 (by decide +kernel)
  refine ⟨⟨sound, other, coarser⟩, merged.1.trans ?_⟩
  decide +kernel

end DistinctCount.RegisterArray
