import DistinctCount.Proofs.Dyadic
import DistinctCount.Proofs.Lockstep

namespace DistinctCount

namespace Store

variable {α : Type} [Scalar α] {s : Store α} {p : Precision} {c : Coupon} {coupons : List Coupon}

/-- A coupon that is known already changes at most the upkeep of registers. -/
theorem alike_update_of_mem (holds : s.Holds p coupons) (known : c ∈ coupons) (valued : 1 ≤ c.value)
    (inOrder : Bool) : (s.update p c inOrder).Alike s := by
  cases content : s.content with
  | coupons kept =>
    have admits := update_admits holds.sound content (Coupon.ne_empty_of_valued valued) inOrder
    rw [admits.known ((holds.represents.held kept content c).mpr known)]
    exact .refl s
  | registers array =>
    obtain rfl := eq_of_content content
    obtain ⟨exact, precision, _, bounds⟩ := holds.registers
    have sound := exact.toSound
    have held : c.value ≤ array.get (c.register array.precision.size) := by
      rw [precision]
      exact (bounds _ (Nat.mod_lt _ p.size_pos) _).mp (Nat.le_refl _) c known rfl
    have same : array.update c inOrder = array.settle := by
      rcases RegisterArray.update_cases sound c inOrder with ⟨_, same⟩ | ⟨larger, _⟩
      · exact same
      · exact absurd held (Nat.not_le_of_lt larger)
    refine .registers ?_
    rw [same]
    exact RegisterArray.alike_settle sound

end Store

namespace Sketch

section

variable {α : Type} [Scalar α] {s : Sketch α} {c : Coupon} {before : List Coupon}

theorem alike_addCoupon_of_mem (holds : s.Holds before) (known : c ∈ before) (valued : 1 ≤ c.value) :
    (s.addCoupon c).Alike s :=
  ⟨rfl, rfl, rfl, Store.alike_update_of_mem holds.store known valued _⟩

variable [Tally.ExactSums α]

/-- A stream can be thinned out to the first occurrence of each coupon. -/
theorem alike_addCoupons_eraseDups (holds : s.Holds before) (stream : List Coupon)
    (valued : ∀ c ∈ stream, 1 ≤ c.value) :
    (s.addCoupons stream).Alike (s.addCoupons stream.eraseDups) := by
  -- The last coupon either repeats an earlier one, or it ends both streams.
  induction stream using List.reverseRecOn with
  | nil => exact .refl s
  | append_singleton earlier c ih =>
    obtain ⟨valued, single⟩ := List.forall_mem_append.mp valued
    have valued' : ∀ d ∈ earlier.eraseDups, 1 ≤ d.value :=
      fun d member => valued d (List.mem_eraseDups.mp member)
    have last : 1 ≤ c.value := single c (List.mem_singleton_self c)
    have left := (holds_addCoupons holds earlier valued).1
    have right := (holds_addCoupons holds earlier.eraseDups valued').1
    rw [addCoupons_append, List.eraseDups_append]
    by_cases again : c ∈ earlier
    · have thinned : [c].removeAll earlier = [] := by simp [List.removeAll, again]
      rw [thinned, List.eraseDups_nil, List.append_nil]
      exact (alike_addCoupon_of_mem left (List.mem_append_left _ again) last).trans (ih valued)
    · have kept : [c].removeAll earlier = [c] := by simp [List.removeAll, again]
      rw [kept, addCoupons_append]
      exact (ih valued).addCoupon left right c

end

/-- Repetitions in a stream do not show. Coupons are kept in the same tables, and registers have the same
values, history and tally, so every answer is the same. -/
theorem addCoupons_eraseDups {α : Type} [Analytic α] [Tally.ExactSums α] (p : Precision) (width : Width)
    (seed : Seed) (outOfOrder : Bool) (stream : List Coupon) (valued : ∀ c ∈ stream, 1 ≤ c.value) :
    let start : Sketch α := { empty p width seed with outOfOrder := outOfOrder }
    let s := start.addCoupons stream
    let t := start.addCoupons stream.eraseDups
    s.AnswersLike t ∧
      match s.store, t.store with
      | .registers a, .registers b => a.values = b.values ∧ a.width = b.width ∧ a.historic = b.historic ∧
          a.currentTally = b.currentTally
      | kept, others => kept = others := by
  intro start s t
  have holds : start.Holds [] := ⟨Store.holds_empty p width, by simp⟩
  have valued' : ∀ c ∈ stream.eraseDups, 1 ≤ c.value :=
    fun c member => valued c (List.mem_eraseDups.mp member)
  have alike : s.Alike t := alike_addCoupons_eraseDups holds stream valued
  obtain ⟨left, width, _⟩ := holds_addCoupons holds stream valued
  obtain ⟨right, width', _⟩ := holds_addCoupons holds stream.eraseDups valued'
  have widths : s.store.width = t.store.width := width.trans width'.symm
  refine ⟨alike.answers left right, ?_⟩
  have stores := alike.store
  obtain ⟨left, _⟩ := left
  obtain ⟨right, _⟩ := right
  change Store.Holds s.store _ _ at left
  change Store.Holds t.store _ _ at right
  generalize s.store = x at stores widths left
  generalize t.store = y at stores widths right
  cases stores with
  | list coupons width width' | set coupons width width' =>
    cases widths
    rfl
  | registers arrays =>
    have exact := left.registers.1
    have exact' := right.registers.1
    refine ⟨arrays.values, widths, arrays.historic, ?_⟩
    rw [exact.currentTally, exact'.currentTally]
    exact RegisterArray.scan_congr widths arrays.values

/-- All registers of four bits leave zero, one coupon comes again while the base is to be moved, and one
more register is raised. -/
theorem addCoupons_eraseDups_pending :
    let stream := (List.range 16).map (Coupon.pack · 3) ++ [.pack 0 3, .pack 5 7]
    (∀ c ∈ stream, 1 ≤ c.value) ∧
      let start : Sketch Float := empty ⟨4, by decide, by decide⟩ .four .standard
      (start.addCoupons stream).estimate = (start.addCoupons stream.eraseDups).estimate :=
  ⟨by decide, (addCoupons_eraseDups ⟨4, by decide, by decide⟩ .four .standard false _ (by decide)).1.estimate⟩

end Sketch

end DistinctCount
