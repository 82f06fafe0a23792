import DistinctCount.Proofs.Exactness
import DistinctCount.Proofs.Stream
import DistinctCount.SketchUnion

namespace DistinctCount

theorem exists_of_bind_eq_ok {ε β γ : Type} {x : Except ε β} {f : β → Except ε γ} {z : γ}
    (done : x >>= f = .ok z) : ∃ y, x = .ok y ∧ f y = .ok z := by
  cases x with
  | error fault => cases done
  | ok y => exact ⟨y, rfl, done⟩

namespace Coupon

/-- Coupons of one value, for as many slots from the first one on. -/
def row (count value : Nat) : List Coupon := (List.range count).map (pack · value)

theorem valued_row {value : Nat} (count : Nat) (positive : 1 ≤ value) (bounded : value ≤ maxValue) :
    ∀ c ∈ row count value, 1 ≤ c.value := by
  intro c member
  obtain ⟨slot, _, rfl⟩ := List.mem_map.mp member
  exact positive.trans_eq (value_pack slot value bounded).symm

end Coupon

namespace Store

variable {α : Type} [Scalar α] {s : Store α} {array source : RegisterArray α} {p q : Precision}
  {c : Coupon} {coupons kept others stream : List Coupon}

/-- A sound store that represents coupons, with an exact tally if it has registers. -/
structure Holds (s : Store α) (p : Precision) (coupons : List Coupon) : Prop where
  sound : s.Sound p
  represents : s.Represents p coupons
  exact : ∀ array, s.content = .registers array → array.Exact

theorem Holds.congr (holds : s.Holds p coupons) (same : ∀ c, c ∈ coupons ↔ c ∈ others) :
    s.Holds p others := ⟨holds.sound, holds.represents.congr same, holds.exact⟩

/-- Registers hold coupons that are too many for a set if their values are the peaks. -/
theorem holds_registers (exact : array.Exact) (precision : array.precision = p)
    (mode : modeFor p coupons.dedup.length = .registers)
    (bounds : ∀ slot < p.size, ∀ bound, array.get slot ≤ bound ↔
      ∀ c ∈ coupons, c.register p.size = slot → c.value ≤ bound) :
    (Store.registers array).Holds p coupons := by
  refine ⟨⟨exact.toSound, precision⟩, ⟨mode.symm, fun kept content => ?_, fun other content => ?_⟩,
    fun other content => ?_⟩ <;> cases content
  · exact fun slot inside => Coupon.eq_peak_of_bounds (bounds slot inside)
  · exact exact

theorem Holds.registers (holds : (Store.registers array).Holds p coupons) :
    array.Exact ∧ array.precision = p ∧ modeFor p coupons.dedup.length = .registers ∧
      ∀ slot < p.size, ∀ bound, array.get slot ≤ bound ↔
        ∀ c ∈ coupons, c.register p.size = slot → c.value ≤ bound := by
  refine ⟨holds.exact array rfl, holds.sound.2, holds.represents.mode.symm, fun slot inside bound => ?_⟩
  rw [holds.represents.read array rfl slot inside, Coupon.peak_le_iff]

theorem Holds.get_row {count value slot : Nat}
    (holds : (Store.registers array).Holds p (Coupon.row count value)) (few : count ≤ p.size)
    (bounded : value ≤ Coupon.maxValue) (inside : slot < p.size) :
    array.get slot = if slot < count then value else 0 := by
  obtain ⟨_, _, _, bounds⟩ := holds.registers
  apply eq_of_forall_ge_iff
  intro bound
  rw [bounds slot inside bound]
  constructor
  · intro all
    split_ifs with hit
    · have member : Coupon.pack slot value ∈ Coupon.row count value :=
        List.mem_map_of_mem (List.mem_range.mpr hit)
      have held := all _ member (Exceptions.register_pack inside value)
      rwa [Coupon.value_pack slot value bounded] at held
    · exact Nat.zero_le bound
  · intro least c member here
    obtain ⟨place, within, rfl⟩ := List.mem_map.mp member
    have hit : place < count := List.mem_range.mp within
    rw [Exceptions.register_pack (hit.trans_le few) value] at here
    subst here
    rw [if_pos hit] at least
    exact (Coupon.value_pack place value bounded).trans_le least

theorem holds_empty (p : Precision) (width : Width) : (empty width : Store α).Holds p [] :=
  ⟨sound_empty p width, represents_empty p width, fun _ content => by cases content⟩

theorem holds_copyAs (holds : s.Holds p coupons) (width : Width) : (s.copyAs width).Holds p coupons := by
  cases s with
  | list list old =>
    exact ⟨holds.sound, ⟨holds.represents.mode, holds.represents.held, fun _ content => by cases content⟩,
      fun _ content => by cases content⟩
  | set set old =>
    exact ⟨holds.sound, ⟨holds.represents.mode, holds.represents.held, fun _ content => by cases content⟩,
      fun _ content => by cases content⟩
  | registers array =>
    obtain ⟨exact, precision, mode, bounds⟩ := holds.registers
    obtain ⟨_, same, _, values⟩ := RegisterArray.copyAs_spec exact.toSound width
    refine holds_registers (RegisterArray.exact_copyAs exact width) (same.trans precision) mode
      (fun slot inside => ?_)
    rw [RegisterArray.get_congr values (precision ▸ inside)]
    exact bounds slot inside

theorem holds_settle (holds : s.Holds p coupons) : s.settle.Holds p coupons := by
  cases s with
  | list list width => exact holds
  | set set width => exact holds
  | registers array =>
    obtain ⟨exact, precision, mode, bounds⟩ := holds.registers
    obtain ⟨_, _, _, _, read⟩ := RegisterArray.settle_spec exact.toSound
    refine holds_registers (RegisterArray.exact_settle exact)
      ((RegisterArray.precision_settle array).trans precision) mode (fun slot inside => ?_)
    rw [read slot (precision ▸ inside)]
    exact bounds slot inside

theorem holds_primed (holds : s.Holds p coupons) : s.primed.Holds p coupons := by
  cases s with
  | list list width => exact holds
  | set set width => exact holds
  | registers array =>
    obtain ⟨exact, precision, mode, bounds⟩ := holds.registers
    have same : array.primed.precision = array.precision ∧
        ∀ slot, array.primed.get slot = array.get slot := by
      unfold RegisterArray.primed
      split <;> exact ⟨rfl, fun _ => rfl⟩
    refine holds_registers (RegisterArray.exact_primed exact) (same.1.trans precision) mode
      (fun slot inside => ?_)
    rw [same.2]
    exact bounds slot inside

/-- The registers that share the bits of a coarser slot hold the coupons of that slot. -/
theorem Holds.shared_le_iff (holds : (Store.registers array).Holds q coupons) (coarser : p.lg ≤ q.lg)
    (slot bound : Nat) :
    (∀ place < array.precision.size, place % p.size = slot → array.get place ≤ bound) ↔
      ∀ c ∈ coupons, c.register p.size = slot → c.value ≤ bound := by
  obtain ⟨_, rfl, _, bounds⟩ := holds.registers
  have finer (c : Coupon) : c.register array.precision.size % p.size = c.register p.size :=
    Nat.mod_mod_of_dvd _ (Precision.size_dvd coarser)
  constructor
  · intro all c member here
    have place : c.register array.precision.size < array.precision.size :=
      Nat.mod_lt _ array.precision.size_pos
    exact (bounds _ place bound).mp (all _ place ((finer c).trans here)) c member rfl
  · intro all place within here
    refine (bounds place within bound).mpr (fun c member same => all c member ?_)
    rw [← finer, same, here]

theorem holds_folded (holds : (Store.registers array).Holds q coupons) (width : Width)
    (coarser : p.lg ≤ q.lg) : (Store.registers (array.folded p width)).Holds p coupons := by
  obtain ⟨exact, same, mode, _⟩ := holds.registers
  have coarser' : p.lg ≤ array.precision.lg := same ▸ coarser
  obtain ⟨_, precision, _, folded⟩ := RegisterArray.folded_spec exact.toSound width coarser'
  refine holds_registers (RegisterArray.exact_folded exact width coarser') precision
    (modeFor_registers_mono (Nat.le_refl _) coarser mode) (fun slot inside bound => ?_)
  rw [folded slot inside bound, holds.shared_le_iff coarser]

theorem holds_merge (holds : (Store.registers array).Holds p coupons)
    (other : (Store.registers source).Holds q others) (coarser : p.lg ≤ q.lg) :
    (Store.registers (array.merge source)).Holds p (others ++ coupons) := by
  obtain ⟨exact, rfl, mode, bounds⟩ := holds.registers
  have exact' := (other.registers).1
  obtain ⟨_, precision, _, _, merged⟩ := RegisterArray.merge_spec exact.toEncoded exact'.toEncoded
  have more := length_dedup_mono (List.subset_append_right others coupons)
  refine holds_registers (RegisterArray.exact_merge exact.toEncoded exact'.toEncoded) precision
    (modeFor_registers_mono more (Nat.le_refl _) mode) (fun slot inside bound => ?_)
  rw [merged slot inside bound, bounds slot inside bound, other.shared_le_iff coarser,
    List.forall_mem_append]
  exact and_comm

theorem foldl_update_registers (array : RegisterArray α) (p : Precision) (stream : List Coupon)
    (inOrder : Bool) :
    stream.foldl (fun s c => update s p c inOrder) (.registers array) =
      .registers (stream.foldl (fun a c => a.update c inOrder) array) := by
  induction stream generalizing array with
  | nil => rfl
  | cons c rest ih => exact ih (array.update c inOrder)

variable [Tally.ExactSums α]

theorem exact_promoted (p : Precision) (width : Width) (coupons : List Coupon) (count : Nat) :
    (promoted p width coupons count : RegisterArray α).Exact := by
  have exact := RegisterArray.exact_updateAll (RegisterArray.exact_zeros (α := α) p width) coupons false
  obtain ⟨sound, _⟩ := promoted_spec (α := α) p width coupons count
  exact ⟨sound, exact.exact⟩

theorem holds_update (holds : s.Holds p coupons) (valued : 1 ≤ c.value) (inOrder : Bool) :
    (s.update p c inOrder).Holds p (c :: coupons) := by
  obtain ⟨sound, _, represents⟩ := update_represents holds.sound holds.represents valued inOrder
  refine ⟨sound, represents, fun array content => ?_⟩
  cases before : s.content with
  | coupons kept =>
    have admits := update_admits holds.sound before (Coupon.ne_empty_of_valued valued) inOrder
    by_cases known : c ∈ kept
    · rw [admits.known known, before] at content
      cases content
    · obtain ⟨all, _, _, made⟩ := admits.fresh known
      rw [content] at made
      cases made
      exact exact_promoted p s.width all all.length
  | registers old =>
    obtain rfl := eq_of_content before
    cases content
    exact RegisterArray.exact_update (holds.exact old rfl) c inOrder

theorem holds_updateAll (holds : s.Holds p coupons) (stream : List Coupon)
    (valued : ∀ c ∈ stream, 1 ≤ c.value) (inOrder : Bool) :
    (stream.foldl (fun s c => s.update p c inOrder) s).Holds p (stream ++ coupons) := by
  induction stream generalizing s coupons with
  | nil => exact holds
  | cons c rest ih =>
    have next := holds_update holds (valued c (by simp)) inOrder
    apply (ih next (fun d member => valued d (by simp [member]))).congr
    intro d
    simp only [List.mem_append, List.mem_cons]
    tauto

theorem holds_updateKept (holds : s.Holds p coupons) {source : Store α}
    (known : source.Holds q others) (valued : ∀ c ∈ others, 1 ≤ c.value)
    (content : source.content = .coupons kept) (inOrder : Bool) :
    (kept.foldl (fun s c => s.update p c inOrder) s).Holds p (others ++ coupons) := by
  have held := known.represents.held kept content
  refine (holds_updateAll holds kept (fun c member => valued c ((held c).mp member)) inOrder).congr
    (fun c => ?_)
  rw [List.mem_append, List.mem_append, held]

theorem holds_absorbRegisters (holds : s.Holds p coupons) (valued : ∀ c ∈ coupons, 1 ≤ c.value)
    (other : (Store.registers source).Holds q others) (coarser : p.lg ≤ q.lg) :
    (Store.registers (SketchUnion.absorbRegisters s p source)).Holds p (others ++ coupons) := by
  unfold SketchUnion.absorbRegisters
  cases content : s.content with
  | coupons kept =>
    have all := holds_updateKept (holds_folded other .eight coarser) holds valued content false
    rw [foldl_update_registers] at all
    apply all.congr
    intro c
    rw [List.mem_append, List.mem_append, or_comm]
  | registers array =>
    rw [eq_of_content content] at holds
    exact holds_merge holds other coarser

end Store

namespace Sketch

section

variable {α : Type} [Scalar α]

/-- A sketch made by updates, merges, copies and upkeep, and all coupons behind it. -/
inductive MadeFrom : Sketch α → List Coupon → Prop where
  | empty (p : Precision) (width : Width) (seed : Seed) : MadeFrom (empty p width seed) []
  | addCoupon {s : Sketch α} {coupons : List Coupon} {c : Coupon} :
    MadeFrom s coupons → 1 ≤ c.value → MadeFrom (s.addCoupon c) (c :: coupons)
  | copyAs {s : Sketch α} {coupons : List Coupon} (width : Width) :
    MadeFrom s coupons → MadeFrom (s.copyAs width) coupons
  | primed {s : Sketch α} {coupons : List Coupon} : MadeFrom s coupons → MadeFrom s.primed coupons
  | settled {s : Sketch α} {coupons : List Coupon} :
    MadeFrom s coupons → MadeFrom (Snapshot.take s).toSketch coupons
  | union {u v : SketchUnion α} {s : Sketch α} {coupons others : List Coupon} :
    MadeFrom u.merged coupons → MadeFrom s others → u.merge s = .ok v →
    MadeFrom v.merged (others ++ coupons)

end

variable {α : Type} [Scalar α] {s other : Sketch α} {u v : SketchUnion α} {p : Precision}
  {width : Width} {c : Coupon} {coupons others : List Coupon}

/-- A sketch that knows of valued coupons. -/
structure Holds (s : Sketch α) (coupons : List Coupon) : Prop where
  store : s.store.Holds s.precision coupons
  valued : ∀ c ∈ coupons, 1 ≤ c.value

theorem holds_empty (p : Precision) (width : Width) (seed : Seed) :
    (empty p width seed : Sketch α).Holds [] := ⟨Store.holds_empty p width, by simp⟩

theorem holds_copyAs (holds : s.Holds coupons) (width : Width) : (s.copyAs width).Holds coupons :=
  ⟨Store.holds_copyAs holds.store width, holds.valued⟩

theorem holds_primed (holds : s.Holds coupons) : s.primed.Holds coupons :=
  ⟨Store.holds_primed holds.store, holds.valued⟩

theorem holds_settled (holds : s.Holds coupons) : (Snapshot.take s).toSketch.Holds coupons :=
  ⟨Store.holds_settle holds.store, holds.valued⟩

theorem seed_coarsened (s : Sketch α) (p : Precision) : (SketchUnion.coarsened s p).seed = s.seed := by
  unfold SketchUnion.coarsened
  split
  · rw [addCoupons_eq]
    rfl
  · rfl

theorem seed_absorb (s : Sketch α) (source : Store α) :
    (SketchUnion.absorb s source).seed = s.seed := by
  unfold SketchUnion.absorb
  split
  · rw [addCoupons_eq]
  · rfl

theorem outOfOrder_absorb (s : Sketch α) (source : Store α) :
    (SketchUnion.absorb s source).outOfOrder = true := by
  unfold SketchUnion.absorb
  split
  · rw [addCoupons_eq]
  · rfl

theorem outOfOrder_merge (merged : u.merge s = .ok v) : v.merged.outOfOrder = true := by
  unfold SketchUnion.merge at merged
  split_ifs at merged
  all_goals
    cases merged
    exact outOfOrder_absorb _ _

theorem MadeFrom.merge {t : Sketch α} (left : s.MadeFrom coupons) (right : other.MadeFrom others)
    (merged : s.merge other = .ok t) : t.MadeFrom (others ++ (coupons ++ [])) := by
  unfold Sketch.merge at merged
  obtain ⟨u, first, rest⟩ := exists_of_bind_eq_ok merged
  obtain ⟨v, second, result⟩ := exists_of_bind_eq_ok rest
  obtain rfl := Except.ok.inj result
  exact .copyAs _ (.union (.union (.empty _ _ _) left first) right second)

variable [Tally.ExactSums α]

theorem holds_addCoupon (holds : s.Holds coupons) (valued : 1 ≤ c.value) :
    (s.addCoupon c).Holds (c :: coupons) :=
  ⟨Store.holds_update holds.store valued _, List.forall_mem_cons.mpr ⟨valued, holds.valued⟩⟩

theorem holds_addCoupons (holds : s.Holds coupons) (stream : List Coupon)
    (valued : ∀ c ∈ stream, 1 ≤ c.value) :
    (s.addCoupons stream).Holds (stream ++ coupons) ∧ (s.addCoupons stream).width = s.width ∧
      (s.addCoupons stream).precision = s.precision := by
  have width := (Store.updateAll_represents holds.store.sound holds.store.represents stream valued
    (!s.outOfOrder)).2.1
  rw [addCoupons_eq]
  exact ⟨⟨Store.holds_updateAll holds.store stream valued _,
    List.forall_mem_append.mpr ⟨valued, holds.valued⟩⟩, width, rfl⟩

theorem holds_coarsened (holds : s.Holds coupons) (coarser : p.lg ≤ s.precision.lg) :
    (SketchUnion.coarsened s p).Holds coupons ∧ (SketchUnion.coarsened s p).precision = p := by
  unfold SketchUnion.coarsened
  cases content : s.store.content with
  | coupons kept =>
    simp only [addCoupons_eq]
    refine ⟨⟨?_, holds.valued⟩, rfl⟩
    have again := Store.holds_updateKept (Store.holds_empty p .eight) holds.store holds.valued content
      (!s.outOfOrder)
    rwa [List.append_nil] at again
  | registers array =>
    have registers := Store.eq_of_content content
    have known := holds.store
    rw [registers] at known
    exact ⟨⟨Store.holds_folded known .eight coarser, holds.valued⟩, rfl⟩

theorem holds_absorb (holds : s.Holds coupons) (known : other.Holds others)
    (coarser : s.precision.lg ≤ other.precision.lg) :
    (SketchUnion.absorb s other.store).Holds (others ++ coupons) ∧
      (SketchUnion.absorb s other.store).precision = s.precision := by
  have valued : ∀ c ∈ others ++ coupons, 1 ≤ c.value :=
    List.forall_mem_append.mpr ⟨known.valued, holds.valued⟩
  unfold SketchUnion.absorb
  cases content : other.store.content with
  | coupons kept =>
    simp only [addCoupons_eq]
    exact ⟨⟨Store.holds_updateKept holds.store known.store known.valued content _, valued⟩, trivial⟩
  | registers source =>
    have registers := known.store
    rw [Store.eq_of_content content] at registers
    exact ⟨⟨Store.holds_absorbRegisters holds.store holds.valued registers coarser, valued⟩, rfl⟩

theorem holds_merge (holds : u.merged.Holds coupons) (known : other.Holds others)
    (seed : other.seed.fingerprint = u.merged.seed.fingerprint) :
    ∃ v, u.merge other = .ok v ∧ v.merged.Holds (others ++ coupons) ∧
      v.merged.seed = u.merged.seed ∧
      v.merged.precision = min u.merged.precision other.precision := by
  let p := min u.merged.precision other.precision
  have lg := Precision.lg_min u.merged.precision other.precision
  refine ⟨_, if_neg (not_not_intro seed), ?_⟩
  have start : (if p = u.merged.precision then u.merged else SketchUnion.coarsened u.merged p).Holds
      coupons ∧
      (if p = u.merged.precision then u.merged else SketchUnion.coarsened u.merged p).precision = p := by
    split_ifs with same
    · exact ⟨holds, same.symm⟩
    · exact holds_coarsened holds (lg.trans_le (Nat.min_le_left _ _))
  obtain ⟨all, precision⟩ := holds_absorb start.1 known
    (by rw [start.2]; exact lg.trans_le (Nat.min_le_right _ _))
  refine ⟨all, (seed_absorb _ _).trans ?_, precision.trans start.2⟩
  split_ifs
  · rfl
  · exact seed_coarsened _ _

theorem holds_of_merge (holds : u.merged.Holds coupons) (known : other.Holds others)
    (merged : u.merge other = .ok v) : v.merged.Holds (others ++ coupons) := by
  by_cases seed : other.seed.fingerprint = u.merged.seed.fingerprint
  · obtain ⟨w, equal, all, _⟩ := holds_merge holds known seed
    rw [merged] at equal
    cases equal
    exact all
  · rw [SketchUnion.merge, if_pos seed] at merged
    cases merged

theorem MadeFrom.holds (made : s.MadeFrom coupons) : s.Holds coupons := by
  induction made with
  | empty p width seed => exact holds_empty p width seed
  | addCoupon _ valued known => exact holds_addCoupon known valued
  | copyAs width _ known => exact holds_copyAs known width
  | primed _ known => exact holds_primed known
  | settled _ known => exact holds_settled known
  | union _ _ merged known known' => exact holds_of_merge known known' merged

def sixteen : Precision := ⟨4, by decide, by decide⟩

/-- Nibbles that have all left the base, the first of them for an exception, so that their tally is pending. -/
def allLeftBase : Sketch Float :=
  (empty sixteen .four .standard).addCoupons (.pack 0 20 :: Coupon.row 16 1)

theorem pending_allLeftBase :
    ∃ a, allLeftBase.store = .registers a ∧ a.isPending = true ∧ a.registers.exceptionCount = 1 :=
  ⟨_, rfl, rfl, rfl⟩

end Sketch

end DistinctCount
