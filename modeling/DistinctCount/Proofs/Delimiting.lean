import DistinctCount.Proofs.Acceptance
import DistinctCount.Proofs.Buffers

/-! Images end by themselves. What is read from the front of some bytes does not depend on the bytes behind it,
and a part of it is refused, wherever it was cut. -/

namespace DistinctCount

namespace Reader

variable {β γ σ : Type} {reader : Reader β} {next : β → Reader γ} {bytes front more rest : List UInt8}
  {x : β} {y : γ} {condition : Bool} {fault : ImageFault} {part : ImagePart} {count : Nat}

/-- The reader takes exactly these bytes for its result, and finds a fault if they end early. -/
structure Takes (reader : Reader β) (front : List UInt8) (result : β) : Prop where
  reads : Reads reader front result
  short : ∀ n < front.length, ∃ fault, reader.run (front.take n) = .error fault

/-- Whatever the reader gives, it has taken the bytes of it and would not have given it for fewer. -/
def Delimited (reader : Reader β) : Prop :=
  ∀ bytes x rest, Gives reader bytes x rest → ∃ front, bytes = front ++ rest ∧ Takes reader front x

theorem takes_nil (reads : Reads reader [] x) : Takes reader [] x :=
  ⟨reads, fun _ less => absurd less (Nat.not_lt_zero _)⟩

/-- Bytes that end in the first step are missed there, and bytes that end in the second step are missed by it. -/
theorem Takes.bind (first : Takes reader front x) (second : Takes (next x) more y) :
    Takes (reader >>= next) (front ++ more) y := by
  refine ⟨first.reads.bind second.reads, fun n less => ?_⟩
  by_cases early : n < front.length
  · obtain ⟨fault, ran⟩ := first.short n early
    refine ⟨fault, ?_⟩
    rw [List.take_append_of_le_length (Nat.le_of_lt early), StateT.run_bind, ran]
    rfl
  · rw [List.length_append] at less
    obtain ⟨fault, ran⟩ := second.short (n - front.length) (by omega)
    refine ⟨fault, ?_⟩
    rw [List.take_append, List.take_of_length_le (Nat.le_of_not_lt early), StateT.run_bind, first.reads]
    exact ran

theorem delimited_pure (x : β) : Delimited (pure x : Reader β) := by
  intro bytes y rest given
  obtain ⟨rfl, rfl⟩ := given.pure
  exact ⟨[], rfl, takes_nil (reads_pure x)⟩

theorem delimited_throw (fault : ImageFault) : Delimited (throw fault : Reader β) :=
  fun _ _ _ given => absurd given not_gives_throw

theorem Delimited.bind (first : Delimited reader) (second : ∀ x, Delimited (next x)) :
    Delimited (reader >>= next) := by
  intro bytes z rest given
  obtain ⟨x, mid, left, right⟩ := given.bind
  obtain ⟨front, rfl, taken⟩ := first _ _ _ left
  obtain ⟨more, rfl, others⟩ := second x _ _ _ right
  exact ⟨front ++ more, (List.append_assoc ..).symm, taken.bind others⟩

theorem delimited_refuseIf (condition : Bool) (fault : ImageFault) : Delimited (refuseIf condition fault) := by
  cases condition with
  | true => exact delimited_throw fault
  | false => exact delimited_pure ()

theorem Delimited.unless {next : Unit → Reader γ} (second : Delimited (next ())) :
    Delimited (refuseIf condition fault >>= next) :=
  (delimited_refuseIf condition fault).bind fun _ => second

theorem delimited_checked {other : Bool} {fault' : ImageFault} :
    Delimited (do refuseIf condition fault; refuseIf other fault'; return x) :=
  .unless (.unless (delimited_pure x))

theorem delimited_bytes (count : Nat) (part : ImagePart) : Delimited (Reader.bytes count part) := by
  intro bytes front rest given
  obtain ⟨enough, rfl, rfl⟩ := given.taken
  have sized : (bytes.take count).length = count := List.length_take_of_le enough
  refine ⟨_, (List.take_append_drop count bytes).symm, reads_bytes sized, fun n less => ?_⟩
  refine ⟨.truncated part, ?_⟩
  have short : ((bytes.take count).take n).length < count := by
    rw [List.length_take_of_le (Nat.le_of_lt less), ← sized]
    exact less
  simp only [Reader.bytes, ensure, bind_assoc, StateT.run_bind, StateT.run_get, pure_bind, if_pos short]
  rfl

theorem delimited_number (count : Nat) (part : ImagePart) : Delimited (number count part) :=
  (delimited_bytes count part).bind fun _ => delimited_pure _

theorem delimited_float (part : ImagePart) : Delimited (float part) :=
  (delimited_number 8 part).bind fun _ => delimited_pure _

theorem delimited_coupons (count : Nat) (part : ImagePart) : Delimited (Reader.coupons count part) :=
  (delimited_bytes _ part).bind fun _ => delimited_pure _

theorem delimited_foldlM {step : σ → β → Reader σ} (one : ∀ state item, Delimited (step state item))
    (state : σ) (items : List β) : Delimited (items.foldlM step state) := by
  induction items generalizing state with
  | nil => exact delimited_pure state
  | cons item others ih =>
    rw [List.foldlM_cons]
    exact (one state item).bind ih

end Reader

open Reader

theorem Preamble.delimited_read : Delimited Preamble.read := by
  unfold Preamble.read
  refine (delimited_bytes 8 _).bind fun fields => ?_
  refine .unless (.unless ?_)
  split
  · refine .unless ?_
    split
    · split
      · exact .unless (delimited_pure _)
      · exact delimited_throw _
    · exact delimited_throw _
  · exact delimited_throw _

theorem CouponList.delimited_read (coupons : List Coupon) : Delimited (CouponList.read coupons) :=
  delimited_foldlM (fun _ _ => delimited_checked) _ _

theorem CouponSet.delimited_read (lgSize : Nat) (coupons : List Coupon) :
    Delimited (CouponSet.read lgSize coupons) :=
  delimited_foldlM (fun _ _ => delimited_checked) _ _

namespace Exceptions

theorem delimited_read (p : Precision) (entries : List Coupon) : Delimited (read p entries) :=
  delimited_foldlM (fun _ _ => delimited_checked) _ _

theorem delimited_readCompact (p : Precision) (count : Nat) : Delimited (readCompact p count) := by
  unfold readCompact
  split
  · exact delimited_pure _
  · refine .unless ((delimited_coupons _ _).bind fun entries => ?_)
    exact (delimited_read p entries).bind fun _ => delimited_pure _

theorem delimited_readUpdatable (p : Precision) (lgSize count : Nat) :
    Delimited (readUpdatable p lgSize count) := by
  unfold readUpdatable
  refine .unless ((delimited_coupons _ _).bind fun entries => ?_)
  split
  · exact delimited_pure _
  · split
    · exact .unless (delimited_pure _)
    · exact delimited_throw _

theorem delimited_checkAgainst (exceptions : Option Exceptions) (p : Precision) (cells : Nibbles)
    (base count : Nat) : Delimited (checkAgainst exceptions p cells base count) := by
  unfold checkAgainst
  refine .unless ?_
  dsimp only
  split
  · exact delimited_throw _
  · split
    · exact delimited_throw _
    · exact delimited_pure _

end Exceptions

theorem Registers.delimited_read (preamble : Preamble) (exceptionCount : Nat) :
    Delimited (Registers.read preamble exceptionCount) := by
  unfold Registers.read
  refine (delimited_bytes _ _).bind fun bytes => ?_
  split
  · have checked (exceptions : Option Exceptions) :=
      (Exceptions.delimited_checkAgainst exceptions preamble.precision ⟨bytes.toArray⟩ preamble.count
        exceptionCount).bind fun _ => delimited_pure (Registers.four ⟨bytes.toArray⟩ exceptions)
    split
    · exact (Exceptions.delimited_readCompact _ _).bind checked
    · exact (Exceptions.delimited_readUpdatable _ _ _).bind checked
  · exact delimited_pure _
  · exact delimited_pure _

namespace RegisterArray

theorem delimited_accept (a : RegisterArray Float) (pending : Bool) : Delimited (accept a pending) := by
  have checked : Delimited (do
      refuseIf (!a.tally.sameBase a.scan)
        (.tallyBase a.tally.base a.tally.atBase a.scan.base a.scan.atBase)
      refuseIf (!a.tally.sameSum a.scan) (.tallySum a.tally.low a.tally.high)
      return a) :=
    delimited_checked
  unfold accept
  dsimp only
  cases pending <;> split
  · exact (delimited_throw _).bind fun _ => checked
  · exact checked
  · exact (delimited_throw _).bind fun _ => delimited_pure _
  · exact delimited_pure _

theorem delimited_readParts (preamble : Preamble) : Delimited (readParts preamble) := by
  unfold readParts
  refine (delimited_float _).bind fun _ => (delimited_float _).bind fun _ => (delimited_float _).bind fun _ => ?_
  refine (delimited_number 4 _).bind fun _ => (delimited_number 4 _).bind fun exceptionCount => ?_
  refine .unless (.unless (.unless (.unless ?_)))
  exact (Registers.delimited_read preamble exceptionCount).bind fun _ => delimited_pure _

theorem delimited_read (preamble : Preamble) : Delimited (read preamble) :=
  (delimited_readParts preamble).bind fun _ => delimited_accept _ _

end RegisterArray

namespace Store

theorem delimited_readList (preamble : Preamble) : Delimited (readList preamble) := by
  unfold readList
  have listed (coupons : List Coupon) := (CouponList.delimited_read coupons).bind fun list =>
    delimited_pure (Store.list list preamble.width : Store Float)
  refine .unless (.unless ?_)
  split
  · exact (delimited_coupons _ _).bind listed
  · refine .unless ((delimited_coupons _ _).bind fun table => ?_)
    exact .unless (listed _)

theorem delimited_readCompactSet (preamble : Preamble) (count : Nat) :
    Delimited (readCompactSet preamble count) := by
  unfold readCompactSet
  exact .unless ((delimited_coupons _ _).bind fun coupons => CouponSet.delimited_read _ coupons)

theorem delimited_readUpdatableSet (preamble : Preamble) (count : Nat) :
    Delimited (readUpdatableSet preamble count) := by
  unfold readUpdatableSet
  refine .unless ((delimited_coupons _ _).bind fun entries => ?_)
  exact .unless delimited_checked

theorem delimited_readSet (preamble : Preamble) : Delimited (readSet preamble) := by
  unfold readSet
  refine .unless ((delimited_number 4 _).bind fun count => ?_)
  split
  · exact (delimited_readCompactSet preamble count).bind fun _ => delimited_pure _
  · exact (delimited_readUpdatableSet preamble count).bind fun _ => delimited_pure _

theorem delimited_read (preamble : Preamble) : Delimited (read preamble) := by
  unfold read
  refine .unless ?_
  cases preamble.mode with
  | list => exact delimited_readList preamble
  | set => exact delimited_readSet preamble
  | registers => exact (RegisterArray.delimited_read preamble).bind fun _ => delimited_pure _

end Store

namespace Sketch

theorem delimited_read (seed : Seed) : Delimited (read seed) :=
  Preamble.delimited_read.bind fun preamble =>
    (Store.delimited_read preamble).bind fun _ => delimited_pure _

theorem reads_image {s : Sketch Float} (reachable : s.Reachable) (layout : Layout) (seed : Seed) :
    ∃ t, Reads (read seed) (s.image layout) t := by
  obtain ⟨coupons, holds⟩ := reachable.holds
  obtain ⟨store, reads, _⟩ := reads_store holds layout
  obtain ⟨lgSize, count⟩ := preamble_lt holds layout
  rw [(image_eq (holds.store.measured layout)).1]
  exact ⟨_, reads_read lgSize count reads seed⟩

/-- Reading bytes is reading from their front, once the seed is known. -/
theorem gives_of_ofImage {seed : UInt32} {bytes : List UInt8} {t : Sketch Float}
    (accepted : ofImage seed bytes = .ok t) :
    ∃ known rest, Gives (read known) bytes t rest ∧
      ∀ other, ofImage seed other = ((read known).run' other).mapError .image := by
  obtain ⟨known, rest, checked, given⟩ := gives_of_checked accepted
  exact ⟨known, rest, given, fun other => by rw [ofImage, checked]; rfl⟩

/-- Accepted bytes begin with an image. Whatever begins with it is accepted as the same sketch, and what ends
before it does is refused as invalid. The image of a sketch is all of it. -/
theorem ofImage_delimited {seed : UInt32} {bytes : List UInt8} {t : Sketch Float}
    (accepted : ofImage seed bytes = .ok t) :
    ∃ n ≤ bytes.length, (∀ other, bytes.take n <+: other → ofImage seed other = .ok t) ∧
      (∀ m < n, ∃ fault, ofImage seed (bytes.take m) = .error fault ∧ fault.kind = .invalidData) ∧
      ∀ (s : Sketch Float) (layout : Layout), s.Reachable → bytes = s.image layout → n = bytes.length := by
  obtain ⟨known, rest, given, others⟩ := gives_of_ofImage accepted
  obtain ⟨front, rfl, taken⟩ := delimited_read known _ _ _ given
  have whole : (front ++ rest).take front.length = front := List.take_left
  refine ⟨front.length, (List.prefix_append front rest).length_le, fun other shared => ?_, fun m less => ?_,
    fun s layout reachable same => ?_⟩
  · rw [whole] at shared
    obtain ⟨behind, rfl⟩ := shared
    rw [others, StateT.run'_eq, taken.reads]
    rfl
  · obtain ⟨fault, ran⟩ := taken.short m less
    refine ⟨.image fault, ?_, rfl⟩
    rw [others, StateT.run'_eq, List.take_append_of_le_length (Nat.le_of_lt less), ran]
    rfl
  · obtain ⟨u, reads⟩ := reads_image reachable layout known
    rw [← same] at reads
    rw [← List.append_nil (front ++ rest)] at given
    obtain ⟨_, none⟩ := given.eq_of_reads reads
    rw [none, List.append_nil]

/-- Either image of registers with an exception is accepted with anything behind it, and refused wherever it is
cut, be it amid the exceptions. -/
theorem ofImage_delimited_exception :
    (allLeftBase.imageSize .compact = 52 ∧ allLeftBase.imageSize .updatable = 64) ∧
    ∀ layout, ∃ t,
      (∀ behind, ofImage allLeftBase.seed.value (allLeftBase.image layout ++ behind) = .ok t) ∧
      ∀ m < allLeftBase.imageSize layout, ∃ fault,
        ofImage allLeftBase.seed.value ((allLeftBase.image layout).take m) = .error fault ∧
          fault.kind = .invalidData := by
  refine ⟨⟨rfl, rfl⟩, fun layout => ?_⟩
  obtain ⟨reachable, _⟩ := reachable_allLeftBase
  obtain ⟨t, loaded, _⟩ := image_ofImage reachable layout
  obtain ⟨n, _, extended, cut, all⟩ := ofImage_delimited loaded
  obtain rfl := all allLeftBase layout reachable rfl
  obtain ⟨coupons, holds⟩ := reachable.holds
  rw [List.take_length] at extended
  rw [(image_eq (holds.store.measured layout)).2] at cut
  exact ⟨t, fun behind => extended _ (List.prefix_append _ behind), cut⟩

end Sketch

end DistinctCount
