import DistinctCount.Proofs.Dyadic
import DistinctCount.Proofs.Origin

namespace DistinctCount

theorem Coupon.one_le_value_ofDigest (d : Digest) : 1 ≤ (ofDigest d).value := by
  have bound : min (leadingZeros d.high) 62 + 1 ≤ maxValue := by
    have : maxValue = 63 := rfl
    omega
  rw [ofDigest, value_pack _ _ bound]
  exact Nat.le_add_left 1 _

namespace Precision

variable {p q : Precision} {ps qs : List Precision}

theorem le_foldl_min_iff {bound : Nat} :
    bound ≤ (ps.foldl min p).lg ↔ bound ≤ p.lg ∧ ∀ q ∈ ps, bound ≤ q.lg := by
  induction ps generalizing p with
  | nil => simp
  | cons q rest ih => rw [List.foldl_cons, ih, lg_min, Nat.le_min, List.forall_mem_cons, and_assoc]

theorem foldl_min_congr (same : ∀ q, q ∈ ps ↔ q ∈ qs) : ps.foldl min p = qs.foldl min p := by
  refine ext_lg (eq_of_forall_le_iff (fun bound => ?_))
  simp only [le_foldl_min_iff, same]

end Precision

/-- The same coupons, in whatever order they are kept, or the same registers. -/
def Content.Same {α : Type} : Content α → Content α → Prop
  | .coupons xs, .coupons ys => xs.Perm ys
  | .registers a, .registers b => a.precision = b.precision ∧ a.registers = b.registers
  | _, _ => False

/-- What can be presented to a union. -/
inductive UnionInput (α : Type) where
  | sketch (s : Sketch α)
  | item (item : Item)
  | bytes (bytes : List UInt8)

namespace UnionInput

section

variable {α : Type} [Scalar α]

def present (u : SketchUnion α) : UnionInput α → Except Fault (SketchUnion α)
  | .sketch s => u.merge s
  | .item value => .ok (u.add value)
  | .bytes value => .ok (u.addBytes value)

/-- The precision that the union of an input cannot exceed. Items have none. -/
def precision? : UnionInput α → Option Precision
  | .sketch s => some s.precision
  | _ => none

/-- The coupons behind an input for a union of a seed. -/
def From (seed : Seed) : UnionInput α → List Coupon → Prop
  | .sketch s, coupons => s.seed.fingerprint = seed.fingerprint ∧ s.MadeFrom coupons
  | .item value, coupons => coupons = [.ofDigest (digest seed.value value.stream)]
  | .bytes value, coupons =>
    coupons = if value.isEmpty then [] else [.ofDigest (digest seed.value value)]

end

end UnionInput

namespace SketchUnion

def presentAll {α : Type} [Scalar α] (u : SketchUnion α) (inputs : List (UnionInput α)) :
    Except Fault (SketchUnion α) :=
  inputs.foldlM UnionInput.present u

variable {α : Type} [Scalar α] [Tally.ExactSums α] {u : SketchUnion α} {input : UnionInput α}
  {inputs : List (UnionInput α)} {coupons others : List Coupon}

/-- One input is taken in without a fault, and its coupons are added to those of the union. -/
theorem holds_present (holds : u.merged.Holds coupons) (feeds : input.From u.merged.seed others) :
    ∃ v, input.present u = .ok v ∧ v.merged.Holds (others ++ coupons) ∧
      v.merged.seed = u.merged.seed ∧
      v.merged.precision = input.precision?.toList.foldl min u.merged.precision := by
  cases input with
  | sketch s => exact Sketch.holds_merge holds feeds.2.holds feeds.1
  | item item =>
    obtain rfl : others = [.ofDigest (digest u.merged.seed.value item.stream)] := feeds
    exact ⟨_, rfl, Sketch.holds_addCoupon holds (Coupon.one_le_value_ofDigest _), rfl, rfl⟩
  | bytes bytes =>
    have only : others = if bytes.isEmpty then [] else
        [.ofDigest (digest u.merged.seed.value bytes)] := feeds
    refine ⟨u.addBytes bytes, rfl, ?_⟩
    simp only [addBytes, Sketch.addBytes]
    split_ifs at only ⊢ <;> subst only
    · exact ⟨holds, rfl, rfl⟩
    · exact ⟨Sketch.holds_addCoupon holds (Coupon.one_le_value_ofDigest _), rfl, rfl⟩

theorem holds_presentAll (source : UnionInput α → List Coupon) (holds : u.merged.Holds coupons)
    (feeds : ∀ input ∈ inputs, input.From u.merged.seed (source input)) :
    ∃ v, u.presentAll inputs = .ok v ∧ v.merged.Holds (inputs.flatMap source ++ coupons) ∧
      v.merged.precision = (inputs.filterMap UnionInput.precision?).foldl min u.merged.precision := by
  induction inputs generalizing u coupons with
  | nil => exact ⟨u, rfl, holds, rfl⟩
  | cons input rest ih =>
    obtain ⟨v, first, known, seed, precision⟩ := holds_present holds (feeds input (by simp))
    obtain ⟨w, all, known', precision'⟩ :=
      ih known (fun other member => seed ▸ feeds other (by simp [member]))
    refine ⟨w, ?_, ⟨known'.store.congr (fun c => ?_), ?_⟩, ?_⟩
    · rw [presentAll, List.foldlM_cons, first]
      exact all
    · simp only [List.flatMap_cons, List.mem_append]
      tauto
    · intro c member
      refine known'.valued c ?_
      simp only [List.flatMap_cons, List.mem_append] at member ⊢
      tauto
    · rw [precision', precision, ← List.foldl_append]
      congr 1
      cases limit : input.precision? <;> simp [limit]

end SketchUnion

theorem RegisterArray.registers_eq_of_eight {α : Type} {a b : RegisterArray α} (left : a.Encoded)
    (right : b.Encoded) (eight : a.width = .eight) (eight' : b.width = .eight)
    (precision : a.precision = b.precision)
    (same : ∀ slot < b.precision.size, a.get slot = b.get slot) : a.registers = b.registers := by
  have octets {r : Registers} (width : r.width = .eight) : ∃ cells, r = .eight cells := by
    unfold Registers.width at width
    split at width
    · cases width
    · cases width
    · exact ⟨_, rfl⟩
  obtain ⟨cells, shape⟩ := octets eight
  obtain ⟨cells', shape'⟩ := octets eight'
  have packed := left.registers.packed
  have packed' := right.registers.packed
  simp only [get, shape, shape'] at same packed packed' ⊢
  rw [Octets.ext_get (packed.1.trans (congrArg _ precision)) packed'.1 same]

namespace Sketch

variable {α : Type} [Analytic α] {s t : Sketch α} {coupons others : List Coupon}

/-- Sketches that cannot be told apart by mode, content, or the estimate that depends on no order. -/
structure Agrees (s t : Sketch α) : Prop where
  precision : s.precision = t.precision
  mode : s.mode = t.mode
  content : s.store.content.Same t.store.content
  composite : s.compositeEstimate = t.compositeEstimate

theorem compositeEstimate_of_coupons {p : Precision} {store : Store α} {kept : List Coupon}
    (sound : store.Sound p) (content : store.content = .coupons kept) :
    store.compositeEstimate = CouponCurve.estimate kept.length := by
  obtain ⟨_, _, count, _⟩ := Store.sound_coupons sound content
  cases store with
  | list list width => exact congrArg CouponCurve.estimate (Option.some.inj count)
  | set set width => exact congrArg CouponCurve.estimate (Option.some.inj count)
  | registers array => cases content

/-- Stores that kept the same coupons differ in their order alone. -/
private theorem same_of_coupons {p : Precision} {store store' : Store α} {kept kept' : List Coupon}
    (left : store.Holds p coupons) (right : store'.Holds p coupons)
    (content : store.content = .coupons kept) (content' : store'.content = .coupons kept') :
    store.content.Same store'.content ∧ store.compositeEstimate = store'.compositeEstimate := by
  obtain ⟨distinct, _⟩ := Store.sound_coupons left.sound content
  obtain ⟨distinct', _⟩ := Store.sound_coupons right.sound content'
  have perm : kept.Perm kept' := by
    rw [List.perm_ext_iff_of_nodup distinct distinct']
    intro c
    rw [left.represents.held kept content, right.represents.held kept' content']
  rw [compositeEstimate_of_coupons left.sound content, compositeEstimate_of_coupons right.sound content',
    perm.length_eq, content, content']
  exact ⟨perm, rfl⟩

/-- Registers of one width that hold the same coupons are the same, and so are their tallies. -/
private theorem same_of_registers {p : Precision} {a b : RegisterArray α}
    (left : (Store.registers a).Holds p coupons) (right : (Store.registers b).Holds p coupons)
    (eight : a.width = .eight) (eight' : b.width = .eight) :
    (Content.registers a).Same (.registers b) ∧ a.compositeEstimate = b.compositeEstimate := by
  obtain ⟨exact, precision, _⟩ := left.registers
  obtain ⟨exact', precision', _⟩ := right.registers
  have same : ∀ slot < b.precision.size, a.get slot = b.get slot := by
    intro slot inside
    rw [precision'] at inside
    rw [left.represents.read a rfl slot inside, right.represents.read b rfl slot inside]
  have equal : a.precision = b.precision := precision.trans precision'.symm
  have scanned : a.scan = b.scan :=
    RegisterArray.scan_congr (eight.trans eight'.symm) (RegisterArray.values_congr equal same)
  refine ⟨⟨equal, RegisterArray.registers_eq_of_eight exact.toEncoded exact'.toEncoded eight eight' equal
    same⟩, ?_⟩
  rw [RegisterArray.compositeEstimate, RegisterArray.compositeEstimate, exact.currentTally,
    exact'.currentTally, scanned, equal]

theorem agrees_of_holds (left : s.Holds coupons) (right : t.Holds others)
    (same : ∀ c, c ∈ coupons ↔ c ∈ others) (precision : s.precision = t.precision)
    (eight : s.width = .eight) (eight' : t.width = .eight) : s.Agrees t := by
  obtain ⟨p, seed, outOfOrder, store⟩ := s
  obtain ⟨q, seed', outOfOrder', store'⟩ := t
  obtain rfl : p = q := precision
  have known := left.store.congr same
  have known' := right.store
  have mode := known.represents.mode.trans known'.represents.mode.symm
  suffices alike : store.content.Same store'.content ∧
      store.compositeEstimate = store'.compositeEstimate from ⟨rfl, mode, alike.1, alike.2⟩
  cases store with
  | list list width =>
    cases store' with
    | list list' width' => exact same_of_coupons known known' rfl rfl
    | set set' width' => cases mode
    | registers array' => cases mode
  | set set width =>
    cases store' with
    | list list' width' => cases mode
    | set set' width' => exact same_of_coupons known known' rfl rfl
    | registers array' => cases mode
  | registers array =>
    cases store' with
    | list list' width' => cases mode
    | set set' width' => cases mode
    | registers array' => exact same_of_registers known known' eight eight'

end Sketch

namespace SketchUnion

theorem width_result {α : Type} [Analytic α] {u : SketchUnion α} {coupons : List Coupon}
    (holds : u.merged.Holds coupons) : u.result.width = .eight := by
  cases store : u.merged.store with
  | list list width => simp [result, resultAs, Sketch.copyAs, Sketch.width, store, Store.copyAs, Store.width]
  | set set width => simp [result, resultAs, Sketch.copyAs, Sketch.width, store, Store.copyAs, Store.width]
  | registers array =>
    have known := holds.store
    rw [store] at known
    have width := (RegisterArray.copyAs_spec (known.registers).1.toSound .eight).2.2.1
    simpa [result, resultAs, Sketch.copyAs, Sketch.width, store, Store.copyAs, Store.width] using width

/-- A union of any sequence of sketches and items is the sketch of all their coupons at the coarsest
precision. Any other sequence of the same inputs has the same result. -/
theorem presentAll_agrees (ceiling : Precision) (seed : Seed) (inputs : List (UnionInput Float))
    (source : UnionInput Float → List Coupon) (feeds : ∀ input ∈ inputs, input.From seed (source input)) :
    ∃ u, (empty ceiling seed).presentAll inputs = .ok u ∧
      u.result.precision = (inputs.filterMap UnionInput.precision?).foldl min ceiling ∧
      u.result.Agrees
        ((Sketch.empty u.result.precision .eight seed).addCoupons (inputs.flatMap source)) ∧
      ∀ others : List (UnionInput Float), (∀ input, input ∈ others ↔ input ∈ inputs) →
        ∃ v, (empty ceiling seed).presentAll others = .ok v ∧ v.result.Agrees u.result := by
  have start : (empty ceiling seed : SketchUnion Float).merged.Holds [] :=
    Sketch.holds_empty ceiling .eight seed
  obtain ⟨u, run, known, precision⟩ := holds_presentAll source start feeds
  rw [List.append_nil] at known
  have single := Sketch.holds_addCoupons
    (Sketch.holds_empty (α := Float) u.result.precision .eight seed)
    (inputs.flatMap source) known.valued
  rw [List.append_nil] at single
  refine ⟨u, run, precision, ?_, fun others same => ?_⟩
  · exact Sketch.agrees_of_holds (Sketch.holds_copyAs known .eight) single.1 (fun _ => Iff.rfl) single.2.2.symm
      (width_result known) single.2.1
  · obtain ⟨v, run', known', precision'⟩ := holds_presentAll source start
      (fun input member => feeds input ((same input).mp member))
    rw [List.append_nil] at known'
    refine ⟨v, run', Sketch.agrees_of_holds (Sketch.holds_copyAs known' .eight)
      (Sketch.holds_copyAs known .eight) (fun c => ?_) (precision'.trans ?_) (width_result known')
      (width_result known)⟩
    · simp only [List.mem_flatMap, same]
    · refine (Precision.foldl_min_congr (fun p => ?_)).trans precision.symm
      simp only [List.mem_filterMap, same]

/-- The coarsest sketch of one coupon lowers the precision of the union. -/
theorem precision_presentAll_coarse :
    ∃ u, (empty ⟨12, by decide, by decide⟩ .standard : SketchUnion Float).presentAll
        [.bytes [1], .sketch ((Sketch.empty ⟨4, by decide, by decide⟩ .six .standard).addCoupon
          (.pack 3 5))] = .ok u ∧
      u.result.precision.lg = 4 := by
  let source : UnionInput Float → List Coupon
    | .sketch _ => [.pack 3 5]
    | .item item => [.ofDigest (digest Seed.standard.value item.stream)]
    | .bytes bytes => if bytes.isEmpty then [] else [.ofDigest (digest Seed.standard.value bytes)]
  obtain ⟨u, run, precision, _⟩ := presentAll_agrees ⟨12, by decide, by decide⟩ .standard
    [.bytes [1], .sketch ((Sketch.empty ⟨4, by decide, by decide⟩ .six .standard).addCoupon
      (.pack 3 5))] source (by
        intro input member
        simp only [List.mem_cons, List.not_mem_nil, or_false] at member
        rcases member with rfl | rfl
        · rfl
        · exact ⟨rfl, .addCoupon (.empty _ _ _) (by decide)⟩)
  exact ⟨u, run, by rw [precision]; rfl⟩

end SketchUnion

end DistinctCount
