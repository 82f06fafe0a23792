import DistinctCount.Proofs.Buffers
import DistinctCount.Proofs.Fillings
import DistinctCount.Proofs.Merging
import DistinctCount.Proofs.StrayTokens

namespace DistinctCount

open Reader (Gives)

namespace Exceptions

variable {e : Exceptions} {p : Precision} {tokens more : Nat}

/-- A table within the largest one, which counts no more exceptions than a number of tokens. -/
structure Within (p : Precision) (tokens : Nat) (e : Exceptions) : Prop extends Tabled e where
  few : e.count ≤ tokens
  most : e.table.lgSize ≤ lgMaxSize p

theorem within_empty (p : Precision) (tokens : Nat) : (empty p).Within p tokens :=
  ⟨tabled_empty p _, Nat.zero_le _, lgMinSize_le_lgMaxSize p⟩

theorem Within.mono (within : e.Within p tokens) (le : tokens ≤ more) : e.Within p more :=
  ⟨within.toTabled, Nat.le_trans within.few le, within.most⟩

theorem Within.place (within : e.Within p tokens) (slot value : Nat) :
    (e.place slot value).Within p (tokens + 1) where
  toTabled := within.toTabled.place slot value
  few := Nat.le_trans (count_place_le e slot value) (Nat.succ_le_succ within.few)
  most := (lgSize_place e slot value).trans_le within.most

theorem Within.grown (within : e.Within p tokens) (few : tokens ≤ p.size)
    (crowded : e.table.isOverloaded = true) : e.grown.Within p tokens := by
  obtain ⟨tabled, _, lgSize, counted⟩ := tabled_grown e
  refine ⟨tabled, ?_, ?_⟩
  · exact Nat.le_trans counted (Nat.le_trans within.toTabled.length_bindings_le within.few)
  · exact lgSize.trans_le (lgSize_lt_of_overloads (Nat.le_trans within.few few) crowded)

/-- One exception more is counted at most, and each may have a token of its own. -/
theorem Within.insert (within : e.Within p tokens) (fits : tokens < p.size) (slot value : Nat) :
    (e.insert slot value).Within p (tokens + 1) := by
  unfold Exceptions.insert
  dsimp only
  split_ifs with known crowded
  · exact within.mono (Nat.le_succ tokens)
  · exact (within.place slot value).grown fits crowded
  · exact within.place slot value

theorem Within.replace (within : e.Within p tokens) (slot value : Nat) :
    (e.replace slot value).Within p tokens := by
  unfold Exceptions.replace
  split
  · rename_i index found
    have taken := (CouponTable.search_found_iff.mp found).2
    refine ⟨⟨?_, ?_⟩, within.few, within.most⟩
    · exact Array.size_setIfInBounds.trans within.sized
    · exact Nat.le_trans (CouponTable.length_occupied_replace_le taken _) within.occupied
  · exact within

variable {bytes rest : List UInt8}

theorem Adopted.within (adopted : e.Adopted p) : e.Within p e.count where
  sized := adopted.sized
  occupied := by
    rw [adopted.counted, bindings, List.length_map]
  few := Nat.le_refl _
  most := adopted.precision ▸ adopted.size_le

theorem within_of_read {entries : List Coupon} (few : entries.length ≤ p.size)
    (given : Gives (read p entries) bytes e rest) : e.Within p entries.length := by
  let Inv (e : Exceptions) (left : List Coupon) : Prop :=
    ∃ done, done + left.length = entries.length ∧ e.Within p done
  have start : Inv (empty p) entries := ⟨0, Nat.zero_add _, within_empty p 0⟩
  have kept := given.foldlM Inv (fun e entry index left bytes next rest reached step => ?_) start
  · obtain ⟨⟨done, whole, within⟩, _⟩ := kept
    exact within.mono (Nat.le_of_eq whole)
  · obtain ⟨done, whole, within⟩ := reached
    obtain ⟨_, step⟩ := step.unless
    obtain ⟨_, step⟩ := step.unless
    obtain ⟨rfl, rfl⟩ := step.pure
    rw [List.length_cons] at whole
    exact ⟨⟨done + 1, by omega, within.insert (by omega) entry.slot entry.value⟩, rfl⟩

end Exceptions

namespace Registers

variable {p : Precision} {r : Registers} {cells : Nibbles} {slot value : Nat}

def tokens (p : Precision) (cells : Nibbles) : Nat := (List.range p.size).countP (cells.get · = token)

theorem tokens_le (p : Precision) (cells : Nibbles) : tokens p cells ≤ p.size :=
  Nat.le_trans List.countP_le_length (Nat.le_of_eq List.length_range)

theorem tokens_put_of_lt (sized : cells.bytes.size = Nibbles.byteCount p.size) (inside : slot < p.size)
    (free : cells.get slot ≠ token) (small : value < token) :
    tokens p cells ≤ tokens p (cells.put slot value) := by
  refine List.countP_mono_left (fun other _ marked => ?_)
  have marked : cells.get other = token := of_decide_eq_true marked
  have apart : other ≠ slot := fun same => free (same ▸ marked)
  rw [cells.get_put slot other value (slot_half_lt sized inside) (Nat.lt_succ_of_lt small), if_neg apart]
  exact decide_eq_true marked

theorem tokens_put_token (sized : cells.bytes.size = Nibbles.byteCount p.size) (inside : slot < p.size)
    (free : cells.get slot ≠ token) : tokens p cells + 1 ≤ tokens p (cells.put slot token) := by
  have written (other : Nat) := cells.get_put slot other token (slot_half_lt sized inside) (Nat.lt_succ_self _)
  let marked (cells : Nibbles) : List Nat := (List.range p.size).filter (cells.get · = token)
  have distinct : (slot :: marked cells).Nodup := by
    refine List.nodup_cons.mpr ⟨fun member => ?_, List.nodup_range.filter _⟩
    exact free (of_decide_eq_true (List.mem_filter.mp member).2)
  have subset : slot :: marked cells ⊆ marked (cells.put slot token) := by
    intro other member
    refine List.mem_filter.mpr ?_
    rw [written]
    rcases List.mem_cons.mp member with rfl | old
    · exact ⟨List.mem_range.mpr inside, by simp⟩
    · obtain ⟨within, held⟩ := List.mem_filter.mp old
      by_cases same : other = slot
      · exact ⟨within, by simp [same]⟩
      · rw [if_neg same]
        exact ⟨within, held⟩
  have length := (distinct.subperm subset).length_le
  rw [List.length_cons] at length
  simpa only [tokens, List.countP_eq_length_filter] using length

/-- Registers of their size, of which each exception has a token. -/
structure Confined (p : Precision) (r : Registers) : Prop where
  sized : r.bytes.size = byteCount r.width p.size
  within : ∀ cells e, r = .four cells (some e) → e.Within p (tokens p cells)

theorem confined_zeros (p : Precision) (width : Width) : (zeros width p.size).Confined p := by
  cases width with
  | four => exact ⟨Nibbles.size_zeros _, fun cells e same => by cases same⟩
  | six => exact ⟨Sextets.size_zeros _, fun cells e same => by cases same⟩
  | eight => exact ⟨Octets.size_zeros _, fun cells e same => by cases same⟩

/-- Writing a register makes at most one exception, and one token with it. -/
theorem Confined.put (confined : r.Confined p) (inside : slot < p.size) (base value : Nat) :
    (r.put p base slot value).Confined p := by
  cases r with
  | four cells exceptions =>
    have sized : cells.bytes.size = Nibbles.byteCount p.size := confined.sized
    by_cases marked : cells.get slot = token
    · simp only [Registers.put, if_pos marked]
      refine ⟨sized, fun kept e same => ?_⟩
      cases exceptions with
      | none => cases same
      | some old =>
        cases same
        exact (confined.within _ _ rfl).replace slot value
    · simp only [Registers.put, if_neg marked, encode]
      split_ifs with small
      · refine ⟨(Nibbles.size_put ..).trans sized, fun kept e same => ?_⟩
        cases same
        exact (confined.within _ _ rfl).mono (tokens_put_of_lt sized inside marked small)
      · have counted := tokens_put_token sized inside marked
        have start : (exceptions.getD (.empty p)).Within p (tokens p cells) := by
          cases exceptions with
          | none => exact Exceptions.within_empty p _
          | some old => exact confined.within _ _ rfl
        refine ⟨(Nibbles.size_put ..).trans sized, fun kept e same => ?_⟩
        cases same
        exact (start.insert (Nat.lt_of_lt_of_le counted (tokens_le p _)) slot value).mono counted
  | six cells => exact ⟨(Sextets.size_put ..).trans confined.sized, fun _ _ same => by cases same⟩
  | eight cells => exact ⟨(Octets.size_put ..).trans confined.sized, fun _ _ same => by cases same⟩

theorem Confined.putAll (confined : r.Confined p) (base : Nat) {pairs : List (Nat × Nat)}
    (inside : ∀ pair ∈ pairs, pair.2 < p.size) :
    (pairs.foldl (fun registers (value, slot) => registers.put p base slot value) r).Confined p := by
  induction pairs generalizing r with
  | nil => exact confined
  | cons pair rest ih =>
    exact ih (confined.put (inside pair List.mem_cons_self) base pair.1)
      (fun other member => inside other (List.mem_cons_of_mem pair member))

theorem confined_ofValues (width : Width) (base : Nat) {values : List Nat} (few : values.length ≤ p.size) :
    (ofValues width p base values).Confined p := by
  refine (confined_zeros p width).putAll base (fun pair member => ?_)
  have inside := List.snd_lt_of_mem_zipIdx member
  omega

theorem confined_of_read {preamble : Preamble} {count : Nat} {bytes rest : List UInt8}
    (given : Gives (read preamble count) bytes r rest) : r.Confined preamble.precision := by
  obtain ⟨size, width⟩ := size_of_read given
  refine ⟨width ▸ size, fun cells e same => ?_⟩
  subst same
  obtain ⟨_, given, passed⟩ := exceptions_of_read given
  obtain ⟨counted, _⟩ := Exceptions.tokens_of_checkAgainst passed
  have few : count ≤ preamble.precision.size := counted ▸ tokens_le preamble.precision cells
  change e.Within preamble.precision ((List.range preamble.precision.size).countP (cells.get · = token))
  rw [counted]
  cases layout : preamble.flags.layout with
  | compact =>
    rw [layout] at given
    rcases Exceptions.exists_read_of_readCompact given with none | ⟨f, _, same, _, read⟩
    · cases none.1
    · cases same
      have within := Exceptions.within_of_read (by rw [List.length_map, List.length_range]; exact few) read
      rwa [List.length_map, List.length_range] at within
  | updatable =>
    rw [layout] at given
    rcases Exceptions.adopted_of_readUpdatable given with none | ⟨f, same, rfl, adopted⟩
    · cases none.1
    · cases same
      exact adopted.within

end Registers

namespace RegisterArray

variable {α : Type} {a source : RegisterArray α} {p : Precision} {slot value : Nat}

/-- An array of a precision whose table of exceptions stays within it. -/
structure Confined (p : Precision) (a : RegisterArray α) : Prop where
  precision : a.precision = p
  registers : a.registers.Confined p

theorem Confined.rebased (confined : a.Confined p) : a.rebased.Confined p := by
  obtain ⟨rfl, registers⟩ := confined
  obtain ⟨p, r, tally, historic, upkeep⟩ := a
  cases r with
  | four cells exceptions =>
    unfold RegisterArray.rebased
    dsimp only
    split_ifs
    · exact registers
    · exact Registers.confined_ofValues .four _ (Nat.le_of_eq (length_values _))
  | six | eight => exact registers

theorem Confined.lift (confined : a.Confined p) (inside : slot < p.size) (value : Nat) :
    (a.lift slot value).Confined p := by
  obtain ⟨rfl, registers⟩ := confined
  unfold RegisterArray.lift
  split_ifs
  · exact ⟨rfl, registers.put inside _ value⟩
  · exact ⟨rfl, registers⟩

theorem Confined.mergeSlots (confined : a.Confined p) (source : RegisterArray α) :
    (a.mergeSlots source).Confined p := by
  unfold RegisterArray.mergeSlots
  generalize source.values.zipIdx = pairs
  induction pairs generalizing a with
  | nil => exact confined
  | cons pair rest ih =>
    have inside : pair.2 % a.precision.size < p.size := by
      rw [confined.precision]
      exact Nat.mod_lt _ p.size_pos
    exact ih (confined.lift inside pair.1)

/-- Eight-bit registers of one precision are merged byte by byte, and any others register by register. -/
theorem Confined.merge (confined : a.Confined p) (other : source.Confined source.precision) :
    (a.merge source).Confined p := by
  have postponed (merged : RegisterArray α) (kept : merged.Confined p) :
      ({ merged with upkeep := .pending none } : RegisterArray α).Confined p :=
    ⟨kept.precision, kept.registers⟩
  unfold RegisterArray.merge
  refine postponed _ ?_
  split
  · rename_i cells others bytes bytes'
    split_ifs with same
    · have size : cells.bytes.size = p.size := by
        have sized := confined.registers.sized
        rwa [bytes] at sized
      have size' : others.bytes.size = p.size := by
        have sized := other.registers.sized
        rwa [bytes', ← same, confined.precision] at sized
      refine ⟨confined.precision, ⟨?_, fun _ _ four => by cases four⟩⟩
      exact (Octets.size_maxima cells others (size.trans size'.symm)).trans size
    · exact confined.mergeSlots source
  · exact confined.mergeSlots source

variable [Scalar α]

theorem confined_zeros (p : Precision) (width : Width) : (zeros p width : RegisterArray α).Confined p :=
  ⟨rfl, Registers.confined_zeros p width⟩

theorem confined_ofValues (width : Width) {values : List Nat} (historic : α) (few : values.length ≤ p.size) :
    (ofValues p width values historic).Confined p :=
  ⟨rfl, Registers.confined_ofValues width _ few⟩

theorem Confined.primed (confined : a.Confined p) : a.primed.Confined p := by
  unfold RegisterArray.primed
  split
  · exact ⟨confined.precision, confined.registers⟩
  · exact confined

theorem Confined.settle (confined : a.Confined p) : a.settle.Confined p := by
  unfold RegisterArray.settle
  split
  · exact confined
  · exact ⟨confined.precision, confined.rebased⟩

theorem Confined.raise (confined : a.Confined p) (inside : slot < p.size) (old new : Nat) :
    (a.raise slot old new).Confined p := by
  obtain ⟨rfl, registers⟩ := confined
  exact ⟨rfl, registers.put inside _ new⟩

theorem Confined.update (confined : a.Confined p) (c : Coupon) (inOrder : Bool) :
    (a.update c inOrder).Confined p := by
  have settled := confined.settle
  have inside : c.register a.settle.precision.size < p.size := by
    rw [settled.precision]
    exact Nat.mod_lt _ p.size_pos
  unfold RegisterArray.update
  dsimp only
  split_ifs
  · exact settled
  · exact settled
  all_goals
    refine Confined.raise ?_ inside _ _
    exact ⟨settled.precision, settled.registers⟩

theorem Confined.updateAll (confined : a.Confined p) (coupons : List Coupon) (inOrder : Bool) :
    (coupons.foldl (fun a c => a.update c inOrder) a).Confined p := by
  induction coupons generalizing a with
  | nil => exact confined
  | cons c rest ih => exact ih (confined.update c inOrder)

theorem Confined.copyAs (confined : a.Confined p) (width : Width) : (a.copyAs width).Confined p := by
  unfold RegisterArray.copyAs
  split_ifs
  · exact confined
  · obtain ⟨rfl, _⟩ := confined
    exact confined_ofValues width _ (Nat.le_of_eq (length_values a))

theorem Confined.folded (confined : a.Confined a.precision) (p : Precision) (width : Width) :
    (a.folded p width).Confined p := by
  unfold RegisterArray.folded
  split_ifs with same
  · subst same
    exact confined.copyAs width
  · exact confined_ofValues width _ (Nat.le_of_eq (length_foldedValues a p))

theorem confined_of_read {preamble : Preamble} {bytes rest : List UInt8} {a : RegisterArray Float}
    (given : Gives (read preamble) bytes a rest) : a.Confined preamble.precision := by
  obtain ⟨⟨precision, _⟩, _, _, _, _, _, read⟩ := described_of_read given
  exact ⟨precision, Registers.confined_of_read read⟩

end RegisterArray

namespace Store

variable {α : Type} {s : Store α} {p : Precision}

/-- A list that is not full, a table of coupons as large as it says and no larger than a set's may be, or
registers with their exceptions. -/
def Confined (p : Precision) : Store α → Prop
  | .list coupons _ => coupons.count < CouponList.capacity
  | .set coupons _ =>
    coupons.table.entries.size = coupons.table.size ∧ coupons.table.lgSize ≤ lgMaxSetSize p
  | .registers array => array.Confined p

theorem half_size_le_byteCount (p : Precision) (width : Width) :
    p.size / 2 ≤ Registers.byteCount width p.size := by
  cases width with
  | four => exact Nat.le_refl _
  | six =>
    change p.size / 2 ≤ p.size * 3 / 4 + 1
    omega
  | eight => exact Nat.div_le_self _ _

/-- Half a byte for each register is enough for the coupons of a set, and any header for those of a list. -/
theorem Confined.imageSize_le (confined : s.Confined p) :
    s.imageSize .updatable ≤ Sketch.maxImageSize p s.width := by
  unfold Sketch.maxImageSize
  cases s with
  | list list width =>
    have header : 40 ≤ 40 + Registers.byteCount width p.size := Nat.le_add_right ..
    exact Nat.le_trans (by decide : 8 + 4 * 8 ≤ 40) (Nat.le_trans header (Nat.le_add_right ..))
  | set set width =>
    obtain ⟨sized, most⟩ := confined
    have quarters := half_size_le_byteCount p width
    have coarse := p.four_le
    have grows : 2 ^ set.table.lgSize ≤ 2 ^ (p.lg - 3) := Nat.pow_le_pow_right Nat.two_pos most
    have eight : p.size = 2 ^ (p.lg - 3) * 2 ^ 3 := by
      rw [← Nat.pow_add, Nat.sub_add_cancel (by omega)]
      rfl
    change 12 + 4 * set.table.entries.size ≤ 40 + Registers.byteCount width p.size + _
    rw [sized, CouponTable.size]
    omega
  | registers array =>
    obtain ⟨rfl, sized, within⟩ := confined
    change 40 + array.registers.bytes.size + 4 * array.entryCount .updatable ≤ 40 + _ + 4 * _
    rw [sized]
    refine Nat.add_le_add_left (Nat.mul_le_mul_left 4 ?_) _
    obtain ⟨p, registers, tally, historic, upkeep⟩ := array
    cases registers with
    | four cells exceptions =>
      refine Nat.pow_le_pow_right Nat.two_pos ?_
      cases exceptions with
      | none => exact Exceptions.lgMinSize_le_lgMaxSize p
      | some e => exact (within cells e rfl).most
    | six | eight => exact Nat.zero_le _

theorem Confined.measured {s : Store Float} (confined : s.Confined p) : s.Measured .updatable := by
  cases s with
  | list list width => exact Nat.le_of_lt confined
  | set set width => trivial
  | registers array =>
    obtain ⟨rfl, _, within⟩ := confined
    obtain ⟨p, registers, tally, historic, upkeep⟩ := array
    cases registers with
    | four cells exceptions =>
      cases exceptions with
      | none =>
        have small := Nat.le_trans (Exceptions.lgMinSize_le_lgMaxSize p) (Exceptions.lgMaxSize_le p)
        exact ⟨Nat.lt_of_le_of_lt small (by decide), List.length_replicate ..⟩
      | some e =>
        have kept := within cells e rfl
        have small := Nat.le_trans kept.most (Exceptions.lgMaxSize_le p)
        exact ⟨Nat.lt_of_le_of_lt small (by decide), kept.sized⟩
    | six | eight => exact ⟨Nat.zero_lt_succ _, rfl⟩

variable [Scalar α]

theorem confined_promoted (p : Precision) (width : Width) (coupons : List Coupon) (count : Nat) :
    (promoted p width coupons count : RegisterArray α).Confined p := by
  have filled := (RegisterArray.confined_zeros (α := α) p width).updateAll coupons false
  exact ⟨filled.precision, filled.registers⟩

theorem confined_updateList (p : Precision) (list : CouponList) (width : Width) (c : Coupon) :
    (updateList p list width c : Store α).Confined p := by
  unfold updateList
  dsimp only
  split_ifs with full coarse
  · exact confined_promoted p width _ _
  · refine ⟨?_, ?_⟩
    · rw [CouponSet.size_entries_insertAll, CouponTable.size, CouponSet.lgSize_insertAll]
      exact CouponTable.size_empty _
    · rw [CouponSet.lgSize_insertAll]
      have fine := Nat.le_of_not_lt coarse
      exact Nat.le_sub_of_add_le fine
  · simpa [Confined, CouponList.isFull] using full

theorem confined_updateSet {set : CouponSet} {width : Width}
    (confined : (Store.set set width : Store α).Confined p) (c : Coupon) :
    (updateSet p set width c : Store α).Confined p := by
  obtain ⟨sized, most⟩ := confined
  have sized' : (set.insert c).table.entries.size = (set.insert c).table.size := by
    rw [CouponSet.size_entries_insert, CouponTable.size, CouponSet.lgSize_insert]
    exact sized
  have most' : (set.insert c).table.lgSize ≤ lgMaxSetSize p := (CouponSet.lgSize_insert set c).trans_le most
  unfold updateSet
  dsimp only
  split_ifs with known crowded large
  · exact ⟨sized, most⟩
  · exact confined_promoted p width _ _
  · have twice : (set.insert c).grown.table.lgSize = (set.insert c).table.lgSize + 1 :=
      CouponSet.lgSize_insertAll _ _
    refine ⟨?_, ?_⟩
    · rw [CouponTable.size, twice, CouponSet.grown, CouponSet.size_entries_insertAll]
      exact CouponTable.size_empty _
    · rw [twice, lgMaxSetSize]
      omega
  · exact ⟨sized', most'⟩

theorem Confined.update (confined : s.Confined p) (c : Coupon) (inOrder : Bool) :
    (s.update p c inOrder).Confined p := by
  cases s with
  | list list width => exact confined_updateList p list width c
  | set set width => exact confined_updateSet confined c
  | registers array => exact RegisterArray.Confined.update confined c inOrder

theorem Confined.copyAs (confined : s.Confined p) (width : Width) : (s.copyAs width).Confined p := by
  cases s with
  | list | set => exact confined
  | registers array => exact RegisterArray.Confined.copyAs confined width

theorem Confined.primed (confined : s.Confined p) : s.primed.Confined p := by
  cases s with
  | list | set => exact confined
  | registers array => exact RegisterArray.Confined.primed confined

theorem Confined.settle (confined : s.Confined p) : s.settle.Confined p := by
  cases s with
  | list | set => exact confined
  | registers array => exact RegisterArray.Confined.settle confined

/-- Whatever an image says, its tables are no larger than those that a sketch makes. -/
theorem confined_of_read {preamble : Preamble} {bytes rest : List UInt8} {s : Store Float}
    (given : Gives (read preamble) bytes s rest) : s.Confined preamble.precision := by
  rcases mode_cases_of_read given with list | set | ⟨array, _, rfl, read⟩
  · obtain ⟨list, rfl, _, _, short⟩ := exists_list_of_readList list
    exact short
  · obtain ⟨set, rfl, admissible, sized, _⟩ := exists_set_of_readSet set
    exact ⟨sized, admissible.most⟩
  · exact RegisterArray.confined_of_read read

end Store

namespace Sketch

variable {α : Type} {s : Sketch α}

def Confined (s : Sketch α) : Prop := s.store.Confined s.precision

theorem confined_empty (p : Precision) (width : Width) (seed : Seed) : (empty p width seed : Sketch α).Confined :=
  (by decide : 0 < CouponList.capacity)

variable [Scalar α]

theorem Confined.addCoupon (confined : s.Confined) (c : Coupon) : (s.addCoupon c).Confined :=
  Store.Confined.update confined c _

theorem Confined.addCoupons (confined : s.Confined) (coupons : List Coupon) : (s.addCoupons coupons).Confined := by
  induction coupons generalizing s with
  | nil => exact confined
  | cons c rest ih => exact ih (confined.addCoupon c)

theorem Confined.coarsened (confined : s.Confined) (p : Precision) : (SketchUnion.coarsened s p).Confined := by
  have start : ({ empty p .eight s.seed with outOfOrder := s.outOfOrder } : Sketch α).Confined :=
    confined_empty p .eight s.seed
  unfold SketchUnion.coarsened
  obtain ⟨q, seed, outOfOrder, store⟩ := s
  cases store with
  | list list width => exact start.addCoupons list.coupons
  | set set width => exact start.addCoupons set.coupons
  | registers array =>
    have known : array.Confined q := confined
    exact (known.precision.symm ▸ known).folded p .eight

theorem Confined.absorb {source : Store α} {q : Precision} (confined : s.Confined) (other : source.Confined q) :
    (SketchUnion.absorb s source).Confined := by
  have late : ({ s with outOfOrder := true } : Sketch α).Confined := confined
  unfold SketchUnion.absorb
  obtain ⟨p, seed, outOfOrder, store⟩ := s
  cases source with
  | list list width => exact late.addCoupons list.coupons
  | set set width => exact late.addCoupons set.coupons
  | registers array =>
    have known : array.Confined q := other
    have known : array.Confined array.precision := known.precision.symm ▸ known
    cases store with
    | list list width => exact (known.folded p .eight).updateAll _ false
    | set set width => exact (known.folded p .eight).updateAll _ false
    | registers kept => exact RegisterArray.Confined.merge confined known

theorem Confined.union {u v : SketchUnion α} (confined : u.merged.Confined) (other : s.Confined)
    (merged : u.merge s = .ok v) : v.merged.Confined := by
  unfold SketchUnion.merge at merged
  dsimp only at merged
  split_ifs at merged
  · cases merged
    exact confined.absorb other
  · cases merged
    exact (confined.coarsened _).absorb other

/-- The sketches that can be obtained: empty ones, those of any accepted image, and what becomes of them by
presenting coupons, by copies, merges and upkeep. -/
inductive Obtainable : Sketch Float → Prop
  | empty (p : Precision) (width : Width) (seed : Seed) : Obtainable (empty p width seed)
  | loaded {seed : UInt32} {bytes : List UInt8} {t : Sketch Float} (accepted : ofImage seed bytes = .ok t) :
    Obtainable t
  | addCoupon {s : Sketch Float} (c : Coupon) : Obtainable s → Obtainable (s.addCoupon c)
  | copyAs {s : Sketch Float} (width : Width) : Obtainable s → Obtainable (s.copyAs width)
  | primed {s : Sketch Float} : Obtainable s → Obtainable s.primed
  | settled {s : Sketch Float} : Obtainable s → Obtainable (Snapshot.take s).toSketch
  | union {u v : SketchUnion Float} {s : Sketch Float} :
    Obtainable u.merged → Obtainable s → u.merge s = .ok v → Obtainable v.merged

section

variable {s : Sketch Float} {p : Precision}

theorem Obtainable.addCoupons (obtained : s.Obtainable) (coupons : List Coupon) :
    (s.addCoupons coupons).Obtainable := by
  induction coupons generalizing s with
  | nil => exact obtained
  | cons c rest ih => exact ih (.addCoupon c obtained)

theorem Obtainable.confined (obtained : s.Obtainable) : s.Confined := by
  induction obtained with
  | empty p width seed => exact confined_empty p width seed
  | loaded accepted =>
    obtain ⟨preamble, _, _, _, precision, given⟩ := exists_preamble_of_ofImage accepted
    rw [Confined, precision]
    exact Store.confined_of_read given
  | addCoupon c _ confined => exact confined.addCoupon c
  | copyAs width _ confined => exact Store.Confined.copyAs confined width
  | primed _ confined => exact Store.Confined.primed confined
  | settled _ confined => exact Store.Confined.settle confined
  | union _ _ merged confined other => exact confined.union other merged

theorem maxImageSize_mono {q : Precision} (finer : p.lg ≤ q.lg) (width : Width) :
    maxImageSize p width ≤ maxImageSize q width := by
  have sizes : p.size ≤ q.size := Nat.pow_le_pow_right Nat.two_pos finer
  have bytes : Registers.byteCount width p.size ≤ Registers.byteCount width q.size := by
    cases width with
    | four => exact Nat.div_le_div_right sizes
    | six => exact Nat.succ_le_succ (Nat.div_le_div_right (Nat.mul_le_mul_right 3 sizes))
    | eight => exact sizes
  have entries : (if width = .four then 2 ^ Exceptions.lgMaxSize p else 0) ≤
      if width = .four then 2 ^ Exceptions.lgMaxSize q else 0 := by
    split_ifs
    · exact Nat.pow_le_pow_right Nat.two_pos (Nat.succ_le_succ finer)
    · exact Nat.le_refl 0
  exact Nat.add_le_add (Nat.add_le_add_left bytes _) (Nat.mul_le_mul_left 4 entries)

/-- The updatable image of a sketch is no larger than what is announced for the precision and the width that it
has now or for a finer precision, whether the sketch was built here or began as an image of any origin. Its table
of exceptions has no more entries than twice its registers, and a buffer of the size that is announced always
takes the image. -/
theorem imageSize_le_maxImageSize (obtained : s.Obtainable) (finer : s.precision.lg ≤ p.lg) :
    s.imageSize .updatable ≤ maxImageSize p s.width ∧
      (∀ array e, s.store = .registers array → array.registers.exceptions? = some e →
        e.table.entries.size ≤ 2 ^ (s.precision.lg + 1)) ∧
      ∀ buffer, maxImageSize p s.width ≤ buffer.length →
        s.writeInto buffer =
          .ok (s.imageSize .updatable, s.image .updatable ++ buffer.drop (s.imageSize .updatable)) ∧
        s.writeInto? buffer =
          some (.ok (s.imageSize .updatable), s.image .updatable ++ buffer.drop (s.imageSize .updatable)) := by
  have confined : s.store.Confined s.precision := obtained.confined
  have most : s.imageSize .updatable ≤ maxImageSize p s.width :=
    Nat.le_trans confined.imageSize_le (maxImageSize_mono finer s.width)
  refine ⟨most, fun array e store held => ?_, fun buffer enough => ?_⟩
  · rw [store] at confined
    obtain ⟨_, _, within⟩ := confined
    cases registers : array.registers with
    | four cells exceptions =>
      rw [registers] at held within
      cases held
      have kept := within cells e rfl
      rw [kept.sized]
      exact Nat.pow_le_pow_right Nat.two_pos kept.most
    | six | eight =>
      rw [registers] at held
      cases held
  · exact writeInto?_eq confined.measured (Nat.le_trans most enough)

set_option maxRecDepth 4000 in
/-- A table that a foreign image brought along, doubled twice, in a buffer of the size that is announced. -/
theorem imageSize_le_maxImageSize_foreign :
    ∃ t, ofImage Seed.standard.value (RegisterArray.firstTokens [0, 0, 0, 80] [1, 0, 0, 84]) = .ok t ∧
      let s := t.addCoupons (Coupon.row 9 30)
      s.Obtainable ∧ s.imageSize .updatable = 112 ∧ maxImageSize s.precision s.width = 176 ∧
        s.writeInto? (List.replicate 176 7) = some (.ok 112, s.image .updatable ++ List.replicate 64 7) := by
  have read : ∃ t, ofImage Seed.standard.value (RegisterArray.firstTokens [0, 0, 0, 80] [1, 0, 0, 84]) = .ok t ∧
      (t.addCoupons (Coupon.row 9 30)).imageSize .updatable = 112 ∧
        maxImageSize (t.addCoupons (Coupon.row 9 30)).precision (t.addCoupons (Coupon.row 9 30)).width = 176 := by
    rw [ofImage, Seed.check_value]
    exact ⟨_, rfl, rfl, rfl⟩
  obtain ⟨t, accepted, size, announced⟩ := read
  have obtained := (Obtainable.loaded accepted).addCoupons (Coupon.row 9 30)
  obtain ⟨_, _, buffers⟩ := imageSize_le_maxImageSize obtained (Nat.le_refl _)
  have enough : maxImageSize (t.addCoupons (Coupon.row 9 30)).precision (t.addCoupons (Coupon.row 9 30)).width ≤
      (List.replicate 176 (7 : UInt8)).length := by
    rw [announced, List.length_replicate]
  have written := (buffers _ enough).2
  rw [size, List.drop_replicate] at written
  exact ⟨t, accepted, obtained, size, announced, written⟩

end

end Sketch

end DistinctCount
