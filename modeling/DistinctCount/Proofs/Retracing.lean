import DistinctCount.Proofs.Erasure
import DistinctCount.Proofs.RoundTrip

/-! What becomes of a sketch in other scalars. The steps that a sketch went through are retraced one by
one; where it went through an image, its tables are those that were read and its numbers stay as they are,
for an image holds binary64 numbers to the last bit. -/

namespace DistinctCount

variable {α : Type} [Scalar α]

namespace RegisterArray

/-- The registers that were read, with the numbers of those that were written. A scan that the reader kept
is taken in the scalars at hand. -/
def reread (a : RegisterArray α) (read : RegisterArray Float) : RegisterArray α :=
  let tally : Tally α := ⟨read.tally.base, read.tally.atBase, a.tally.low, a.tally.high⟩
  let settled : RegisterArray α := ⟨read.precision, read.registers, tally, a.historic, .settled⟩
  { settled with upkeep := read.upkeep.map fun _ => settled.scan }

variable {a : RegisterArray α} {read written : RegisterArray Float}

theorem erase_reread (a : RegisterArray α) (known : read.Sound) : (a.reread read).erase = read.erase := by
  obtain ⟨p, registers, tally, historic, upkeep⟩ := read
  cases upkeep with
  | settled => rfl
  | pending scanned =>
    cases scanned with
    | none => rfl
    | some kept =>
      have scanned := congrArg Tally.erase (known.scanned kept rfl)
      exact congrArg (fun scanned => RegisterArray.mk p registers tally.erase ⟨⟩ (.pending (some scanned)))
        scanned.symm

theorem twin_reread (alike : a.erase = written.erase) (twin : read.Twin written) : (a.reread read).Twin a := by
  have base : a.tally.base = written.tally.base := congrArg (·.tally.base) alike
  have atBase : a.tally.atBase = written.tally.atBase := congrArg (·.tally.atBase) alike
  have pending : a.isPending = written.isPending := by
    rw [← isPending_erase, alike, isPending_erase]
  constructor
  · exact twin.precision.trans (congrArg precision alike).symm
  · exact twin.width.trans (congrArg width alike).symm
  · exact twin.values.trans (congrArg values alike).symm
  · simp only [reread, twin.tally, ← base, ← atBase]
  · rfl
  · rw [pending, ← twin.pending]
    unfold reread isPending
    cases read.upkeep <;> rfl

theorem exact_reread (exact : a.Exact) (alike : a.erase = written.erase) (twin : read.Twin written)
    (known : read.Encoded) : (a.reread read).Exact := by
  refine (twin_reread alike twin).exact exact known.registers (fun kept pending => ?_)
  obtain ⟨p, registers, tally, historic, upkeep⟩ := read
  cases upkeep with
  | settled => cases pending
  | pending scanned =>
    cases scanned <;> cases pending
    rfl

end RegisterArray

namespace Store

/-- The tables that were read, with the numbers of the store that was written. Registers are read only where
registers were written. -/
def reread (s : Store α) (read : Store Float) : Store α :=
  match read, s with
  | .list coupons width, _ => .list coupons width
  | .set coupons width, _ => .set coupons width
  | .registers array, .registers written => .registers (written.reread array)
  | .registers _, s => s

variable {s : Store α} {read written : Store Float} {p : Precision} {coupons others : List Coupon}

theorem erase_reread (alike : s.erase = written.erase) (twin : read.Twin written) (known : read.Sound p) :
    (s.reread read).erase = read.erase := by
  cases twin with
  | list coupons width => rfl
  | set width perm => rfl
  | registers twin =>
    obtain ⟨array, rfl, _⟩ := exists_of_erase_eq_registers alike
    exact congrArg Store.registers (RegisterArray.erase_reread array known.1)

theorem twin_reread (alike : s.erase = written.erase) (twin : read.Twin written) : (s.reread read).Twin s := by
  cases twin with
  | list coupons width =>
    cases s with
    | list =>
      cases alike
      exact .refl _
    | set | registers => cases alike
  | set width perm =>
    cases s with
    | set =>
      cases alike
      exact .set width perm
    | list | registers => cases alike
  | registers twin =>
    obtain ⟨array, rfl, same⟩ := exists_of_erase_eq_registers alike
    exact .registers (RegisterArray.twin_reread same twin)

theorem holds_reread (holds : s.Holds p coupons) (alike : s.erase = written.erase) (twin : read.Twin written)
    (known : read.Holds p others) : (s.reread read).Holds p coupons := by
  have again := twin_reread alike twin
  cases twin with
  | list | set => exact holds.of_twin again known.sound (fun _ content => by cases content)
  | registers twin =>
    obtain ⟨array, rfl, same⟩ := exists_of_erase_eq_registers alike
    obtain ⟨encoded, precision, _⟩ := known.registers
    have exact := RegisterArray.exact_reread holds.registers.1 same twin encoded.toEncoded
    refine holds.of_twin again ⟨exact.toSound, precision⟩ (fun _ content => ?_)
    cases content
    exact exact

end Store

namespace Sketch

def reread (s : Sketch α) (read : Sketch Float) : Sketch α :=
  ⟨read.precision, read.seed, read.outOfOrder, s.store.reread read.store⟩

/-- A sketch that went through the steps of another one in scalars of its own. -/
inductive Retraces : Sketch α → Sketch Float → Prop
  | empty (p : Precision) (width : Width) (seed : Seed) : Retraces (empty p width seed) (empty p width seed)
  | addCoupon {s : Sketch α} {f : Sketch Float} {c : Coupon} :
    Retraces s f → 1 ≤ c.value → Retraces (s.addCoupon c) (f.addCoupon c)
  | copyAs {s : Sketch α} {f : Sketch Float} (width : Width) :
    Retraces s f → Retraces (s.copyAs width) (f.copyAs width)
  | primed {s : Sketch α} {f : Sketch Float} : Retraces s f → Retraces s.primed f.primed
  | settled {s : Sketch α} {f : Sketch Float} :
    Retraces s f → Retraces (Snapshot.take s).toSketch (Snapshot.take f).toSketch
  | union {u v : SketchUnion α} {m n : SketchUnion Float} {s : Sketch α} {f : Sketch Float} :
    u.ceiling = m.ceiling → Retraces u.merged m.merged → Retraces s f →
    u.merge s = .ok v → m.merge f = .ok n → Retraces v.merged n.merged
  | reloaded {s : Sketch α} {f g : Sketch Float} (layout : Layout) :
    Retraces s f → ofImage f.seed.value (f.image layout) = .ok g → Retraces (s.reread g) g

variable {s : Sketch α} {f g : Sketch Float} {coupons others : List Coupon}

theorem erase_reread (alike : s.erase = f.erase) (twin : g.Twin f) (known : g.Holds others) :
    (s.reread g).erase = g.erase :=
  congrArg (Sketch.mk g.precision g.seed g.outOfOrder)
    (Store.erase_reread (congrArg Sketch.store alike) twin.store known.store.sound)

theorem holds_reread (holds : s.Holds coupons) (alike : s.erase = f.erase) (twin : g.Twin f)
    (known : g.Holds others) : (s.reread g).Holds coupons := by
  have precision : s.precision = g.precision := (congrArg Sketch.precision alike).trans twin.precision.symm
  exact ⟨Store.holds_reread (precision ▸ holds.store) (congrArg Sketch.store alike) twin.store known.store,
    holds.valued⟩

theorem Retraces.reachable (run : s.Retraces f) : f.Reachable := by
  induction run with
  | empty p width seed => exact .empty p width seed
  | addCoupon _ valued reachable => exact .addCoupon reachable valued
  | copyAs width _ reachable => exact .copyAs width reachable
  | primed _ reachable => exact .primed reachable
  | settled _ reachable => exact .settled reachable
  | union _ _ _ _ merged reachable reachable' => exact .union reachable reachable' merged
  | reloaded layout _ loaded reachable => exact .reloaded layout reachable loaded

theorem Retraces.addCoupons (run : s.Retraces f) (stream : List Coupon)
    (valued : ∀ c ∈ stream, 1 ≤ c.value) : (s.addCoupons stream).Retraces (f.addCoupons stream) := by
  induction stream generalizing s f with
  | nil => exact run
  | cons c rest ih =>
    obtain ⟨first, others⟩ := List.forall_mem_cons.mp valued
    exact ih (.addCoupon run first) others

theorem Reachable.twin_of_loaded (reachable : f.Reachable) {layout : Layout}
    (loaded : ofImage f.seed.value (f.image layout) = .ok g) : g.Twin f ∧ ∃ coupons, g.Holds coupons := by
  obtain ⟨coupons, holds⟩ := reachable.holds
  obtain ⟨t, equal, twin, again, _⟩ := ofImage_image holds layout
  rw [loaded] at equal
  cases equal
  exact ⟨twin, coupons, again⟩

/-- Tables and registers are the same in all scalars. -/
theorem Retraces.erase (run : s.Retraces f) : s.erase = f.erase := by
  induction run with
  | empty p width seed => rfl
  | addCoupon _ _ alike => rw [erase_addCoupon, erase_addCoupon, alike]
  | copyAs width _ alike => rw [erase_copyAs, erase_copyAs, alike]
  | primed _ alike => rw [erase_primed, erase_primed, alike]
  | settled _ alike => rw [erase_settled, erase_settled, alike]
  | union ceiling _ _ merged merged' alike alike' =>
    have same := SketchUnion.merge_congr ceiling alike alike'
    rw [merged, merged'] at same
    exact congrArg SketchUnion.merged (Except.ok.inj same)
  | reloaded layout run loaded alike =>
    obtain ⟨twin, _, known⟩ := run.reachable.twin_of_loaded loaded
    exact erase_reread alike twin known

/-- Every sketch that can come about has its counterpart in other scalars. -/
theorem Reachable.exists_retraces (reachable : f.Reachable) : ∃ s : Sketch α, s.Retraces f := by
  induction reachable with
  | empty p width seed => exact ⟨_, .empty p width seed⟩
  | addCoupon _ valued known =>
    obtain ⟨s, run⟩ := known
    exact ⟨_, .addCoupon run valued⟩
  | copyAs width _ known =>
    obtain ⟨s, run⟩ := known
    exact ⟨_, .copyAs width run⟩
  | primed _ known =>
    obtain ⟨s, run⟩ := known
    exact ⟨_, .primed run⟩
  | settled _ known =>
    obtain ⟨s, run⟩ := known
    exact ⟨_, .settled run⟩
  | @union m n f _ _ merged known known' =>
    obtain ⟨r, run⟩ := known
    obtain ⟨s, run'⟩ := known'
    let u : SketchUnion α := ⟨m.ceiling, r⟩
    have same : (u.merge s).map SketchUnion.erase = (m.merge f).map SketchUnion.erase :=
      SketchUnion.merge_congr rfl run.erase run'.erase
    rw [merged] at same
    cases result : u.merge s with
    | error fault =>
      rw [result] at same
      cases same
    | ok v => exact ⟨_, .union rfl run run' result merged⟩
  | reloaded layout _ loaded known =>
    obtain ⟨s, run⟩ := known
    exact ⟨_, .reloaded layout run loaded⟩

theorem Retraces.holds [Tally.ExactSums α] (run : s.Retraces f) : ∃ coupons, s.Holds coupons := by
  induction run with
  | empty p width seed => exact ⟨[], holds_empty p width seed⟩
  | addCoupon _ valued known =>
    obtain ⟨coupons, holds⟩ := known
    exact ⟨_, holds_addCoupon holds valued⟩
  | copyAs width _ known =>
    obtain ⟨coupons, holds⟩ := known
    exact ⟨coupons, holds_copyAs holds width⟩
  | primed _ known =>
    obtain ⟨coupons, holds⟩ := known
    exact ⟨coupons, holds_primed holds⟩
  | settled _ known =>
    obtain ⟨coupons, holds⟩ := known
    exact ⟨coupons, holds_settled holds⟩
  | union _ _ _ merged _ known known' =>
    obtain ⟨coupons, holds⟩ := known
    obtain ⟨others, holds'⟩ := known'
    exact ⟨others ++ coupons, holds_of_merge holds holds' merged⟩
  | reloaded layout run loaded known =>
    obtain ⟨coupons, holds⟩ := known
    obtain ⟨twin, _, known⟩ := run.reachable.twin_of_loaded loaded
    exact ⟨coupons, holds_reread holds run.erase twin known⟩

end Sketch

end DistinctCount
