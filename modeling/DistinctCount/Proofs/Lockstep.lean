import DistinctCount.Proofs.Dyadic
import DistinctCount.Proofs.WidthIndependence

namespace DistinctCount

/-- Computations that fail with the same fault, or give related results. -/
inductive SameOutcome {ε β γ : Type} (related : β → γ → Prop) : Except ε β → Except ε γ → Prop
  | error (fault : ε) : SameOutcome related (.error fault) (.error fault)
  | ok {y : β} {z : γ} : related y z → SameOutcome related (.ok y) (.ok z)

theorem SameOutcome.bind {ε β γ β' γ' : Type} {related : β → γ → Prop} {related' : β' → γ' → Prop}
    {x : Except ε β} {x' : Except ε γ} {f : β → Except ε β'} {g : γ → Except ε γ'}
    (same : SameOutcome related x x')
    (next : ∀ y z, x = .ok y → x' = .ok z → related y z → SameOutcome related' (f y) (g z)) :
    SameOutcome related' (x >>= f) (x' >>= g) := by
  cases same with
  | error fault => exact .error fault
  | ok related => exact next _ _ rfl rfl related

namespace Sketch

/-- Sketches that differ at most in the width of their registers or of those to come. -/
structure Alike {α : Type} (s t : Sketch α) : Prop where
  precision : s.precision = t.precision
  seed : s.seed = t.seed
  outOfOrder : s.outOfOrder = t.outOfOrder
  store : s.store.Alike t.store

section

variable {α : Type} {s t u : Sketch α}

theorem Alike.refl (s : Sketch α) : s.Alike s := ⟨rfl, rfl, rfl, .refl _⟩

theorem Alike.symm (alike : s.Alike t) : t.Alike s :=
  ⟨alike.precision.symm, alike.seed.symm, alike.outOfOrder.symm, alike.store.symm⟩

theorem Alike.trans (alike : s.Alike t) (alike' : t.Alike u) : s.Alike u :=
  ⟨alike.precision.trans alike'.precision, alike.seed.trans alike'.seed,
    alike.outOfOrder.trans alike'.outOfOrder, alike.store.trans alike'.store⟩

theorem alike_empty (p : Precision) (width width' : Width) (seed : Seed) :
    (empty p width seed : Sketch α).Alike (empty p width' seed) := ⟨rfl, rfl, rfl, .list ..⟩

theorem Alike.cleared (alike : s.Alike t) : s.cleared.Alike t.cleared := by
  rw [Sketch.cleared, Sketch.cleared, alike.precision, alike.seed]
  exact alike_empty ..

end

section

variable {α : Type} [Scalar α] {s t : Sketch α} {coupons others : List Coupon}

/-- The coupons that a sketch still has are among those that it saw. -/
theorem Holds.valued_kept {kept : List Coupon} (holds : s.Holds coupons)
    (content : s.store.content = .coupons kept) : ∀ c ∈ kept, 1 ≤ c.value :=
  fun c member => holds.valued c ((holds.store.represents.held kept content c).mp member)

theorem alike_copyAs (holds : s.Holds coupons) (width : Width) : (s.copyAs width).Alike s :=
  ⟨rfl, rfl, rfl, Store.alike_copyAs holds.store width⟩

theorem alike_settled (holds : s.Holds coupons) : (Snapshot.take s).toSketch.Alike s :=
  ⟨rfl, rfl, rfl, Store.alike_settle holds.store⟩

theorem alike_primed (s : Sketch α) : s.primed.Alike s := ⟨rfl, rfl, rfl, Store.alike_primed s.store⟩

end

section

variable {α : Type} [Scalar α] [Tally.ExactSums α] {s t other source : Sketch α} {u v : SketchUnion α}
  {p : Precision} {c : Coupon} {coupons others few many : List Coupon}

theorem Alike.addCoupon (alike : s.Alike t) (left : s.Holds coupons) (right : t.Holds others)
    (c : Coupon) : (s.addCoupon c).Alike (t.addCoupon c) := by
  obtain ⟨p, seed, outOfOrder, store⟩ := s
  obtain ⟨q, seed', outOfOrder', store'⟩ := t
  obtain ⟨precision, same, order, stores⟩ := alike
  cases precision
  cases order
  exact ⟨rfl, same, rfl, stores.update left.store right.store c _⟩

theorem Alike.addCoupons (alike : s.Alike t) (left : s.Holds coupons) (right : t.Holds others)
    (stream : List Coupon) (valued : ∀ c ∈ stream, 1 ≤ c.value) :
    (s.addCoupons stream).Alike (t.addCoupons stream) := by
  induction stream generalizing s t coupons others with
  | nil => exact alike
  | cons c rest ih =>
    have first : 1 ≤ c.value := valued c (by simp)
    exact ih (alike.addCoupon left right c) (holds_addCoupon left first) (holds_addCoupon right first)
      (fun d member => valued d (by simp [member]))

theorem Alike.coarsened (alike : s.Alike t) (left : s.Holds coupons) (right : t.Holds others)
    (coarser : p.lg ≤ s.precision.lg) :
    (SketchUnion.coarsened s p).Alike (SketchUnion.coarsened t p) := by
  obtain ⟨q, seed, outOfOrder, store⟩ := s
  obtain ⟨q', seed', outOfOrder', store'⟩ := t
  obtain ⟨precision, same, order, stores⟩ := alike
  cases precision
  cases same
  cases order
  have start : ({ Sketch.empty p .eight seed with outOfOrder := outOfOrder } : Sketch α).Holds [] :=
    ⟨Store.holds_empty p .eight, by simp⟩
  cases stores with
  | list | set => exact (Alike.refl _).addCoupons start start _ (left.valued_kept rfl)
  | registers arrays =>
    obtain ⟨exact, precision, _⟩ := left.store.registers
    exact ⟨rfl, rfl, rfl, .registers (arrays.folded exact.toSound right.store.registers.1.toSound _ _
      (precision.symm ▸ coarser))⟩

theorem Alike.absorb (alike : s.Alike t) (sources : other.Alike source) (left : s.Holds coupons)
    (right : t.Holds others) (known : other.Holds few) (known' : source.Holds many)
    (coarser : s.precision.lg ≤ other.precision.lg) :
    (SketchUnion.absorb s other.store).Alike (SketchUnion.absorb t source.store) := by
  obtain ⟨p, seed, outOfOrder, store⟩ := s
  obtain ⟨p', seed', outOfOrder', store'⟩ := t
  obtain ⟨q, _, _, incoming⟩ := other
  obtain ⟨q', _, _, incoming'⟩ := source
  obtain ⟨precision, same, _, stores⟩ := alike
  obtain ⟨finer, _, _, sources⟩ := sources
  cases precision
  cases same
  cases finer
  cases sources with
  | list | set =>
    have together : ({ precision := p, seed := seed, outOfOrder := true, store := store } : Sketch α).Alike
        { precision := p, seed := seed, outOfOrder := true, store := store' } := ⟨rfl, rfl, rfl, stores⟩
    have late : ({ precision := p, seed := seed, outOfOrder := true, store := store } : Sketch α).Holds
        coupons := ⟨left.store, left.valued⟩
    have late' : ({ precision := p, seed := seed, outOfOrder := true, store := store' } : Sketch α).Holds
        others := ⟨right.store, right.valued⟩
    exact together.addCoupons late late' _ (known.valued_kept rfl)
  | registers arrays =>
    exact ⟨rfl, rfl, rfl, .registers (stores.absorbRegisters arrays left.store right.store known.store
      known'.store coarser)⟩

/-- Unions of alike sketches take in alike sketches, or refuse them for the same reason. -/
theorem Alike.union (alike : u.merged.Alike v.merged) (sources : s.Alike t)
    (left : u.merged.Holds coupons) (right : v.merged.Holds others) (known : s.Holds few)
    (known' : t.Holds many) :
    SameOutcome (fun u v => u.merged.Alike v.merged) (u.merge s) (v.merge t) := by
  have lg := Precision.lg_min u.merged.precision s.precision
  have precision := alike.precision
  unfold SketchUnion.merge
  rw [← alike.seed, ← sources.seed]
  simp only [← precision, ← sources.precision]
  split_ifs with seeds same
  · exact .error _
  · refine .ok (alike.absorb sources left right known known' ?_)
    rw [← same]
    exact lg.trans_le (Nat.min_le_right _ _)
  · have coarser := lg.trans_le (Nat.min_le_left _ _)
    obtain ⟨start, folded⟩ := holds_coarsened left coarser
    obtain ⟨start', _⟩ := holds_coarsened right (coarser.trans_eq (congrArg Precision.lg precision))
    refine .ok ((alike.coarsened left right coarser).absorb sources start start' known known' ?_)
    rw [folded]
    exact lg.trans_le (Nat.min_le_right _ _)

theorem Alike.merge (alike : s.Alike t) (sources : other.Alike source) (left : s.Holds coupons)
    (right : t.Holds others) (known : other.Holds few) (known' : source.Holds many) :
    SameOutcome Alike (s.merge other) (t.merge source) := by
  have start : (SketchUnion.empty (max s.precision other.precision) s.seed : SketchUnion α).merged.Holds
      [] := holds_empty ..
  unfold Sketch.merge
  rw [← alike.precision, ← sources.precision, ← alike.seed]
  refine ((Alike.refl _).union alike start start left right).bind (fun u v first first' both => ?_)
  have taken := holds_of_merge start left first
  have taken' := holds_of_merge start right first'
  refine (both.union sources taken taken' known known').bind (fun w x second second' whole => .ok ?_)
  have all := holds_of_merge taken known second
  have all' := holds_of_merge taken' known' second'
  exact (alike_copyAs all _).trans (whole.trans (alike_copyAs all' _).symm)

end

variable {α : Type} [Analytic α] {s t : Sketch α} {coupons others : List Coupon}

theorem Alike.answers (alike : s.Alike t) (left : s.Holds coupons) (right : t.Holds others) :
    s.AnswersLike t := by
  obtain ⟨p, seed, outOfOrder, store⟩ := s
  obtain ⟨q, seed', outOfOrder', store'⟩ := t
  obtain ⟨precision, same, order, stores⟩ := alike
  cases precision
  cases order
  cases stores with
  | list | set => exact ⟨rfl, rfl, rfl, fun _ => rfl, fun _ => rfl⟩
  | registers arrays =>
    have exact := left.store.registers.1
    have exact' := right.store.registers.1
    exact ⟨rfl, arrays.estimate exact exact' _, arrays.compositeEstimate exact exact',
      fun deviation => arrays.lowerBound exact exact' _ deviation,
      fun deviation => arrays.upperBound exact exact' _ deviation⟩

end Sketch

/-- What a caller does with a sketch. A snapshot is taken and made a sketch again, and a reading may scan
registers with pending upkeep. -/
inductive Operation (α : Type) where
  | add (c : Coupon)
  | clear
  | merge (other : Sketch α)
  | copyAs (width : Width)
  | snapshot
  | read

namespace Operation

/-- The sketch after an operation. A merge that is refused leaves it as it is. -/
def apply {α : Type} [Scalar α] (s : Sketch α) : Operation α → Sketch α
  | add c => s.addCoupon c
  | clear => s.cleared
  | merge other => (s.merge other).toOption.getD s
  | copyAs width => s.copyAs width
  | snapshot => (Snapshot.take s).toSketch
  | read => s.primed

/-- Operations that change at most how a sketch keeps its content. -/
def IsConversion {α : Type} : Operation α → Prop
  | copyAs _ | snapshot | read => True
  | _ => False

end Operation

/-- One move of two runs: both go on, or one of them alone. -/
inductive Move (α : Type) where
  | both (x y : Operation α)
  | left (x : Operation α)
  | right (y : Operation α)

namespace Move

/-- Both runs do the same, where sketches to be merged may differ in width, and each may convert. -/
inductive Fair {α : Type} [Scalar α] : Move α → Prop
  | add {c : Coupon} : 1 ≤ c.value → Fair (.both (.add c) (.add c))
  | clear : Fair (.both .clear .clear)
  | merge {other source : Sketch α} {coupons others : List Coupon} : other.MadeFrom coupons →
    source.MadeFrom others → other.Alike source → Fair (.both (.merge other) (.merge source))
  | left {x : Operation α} : x.IsConversion → Fair (.left x)
  | right {y : Operation α} : y.IsConversion → Fair (.right y)

def apply {α : Type} [Scalar α] (pair : Sketch α × Sketch α) : Move α → Sketch α × Sketch α
  | both x y => (x.apply pair.1, y.apply pair.2)
  | left x => (x.apply pair.1, pair.2)
  | right y => (pair.1, y.apply pair.2)

end Move

namespace Sketch

/-- Sketches that were made somehow, and are alike. -/
structure Abreast {α : Type} [Scalar α] (s t : Sketch α) : Prop where
  alike : s.Alike t
  left : ∃ coupons, s.MadeFrom coupons
  right : ∃ coupons, t.MadeFrom coupons

section

variable {α : Type} [Scalar α] {s t : Sketch α} {x : Operation α} {coupons : List Coupon}

theorem MadeFrom.convert (made : s.MadeFrom coupons) (conversion : x.IsConversion) :
    (x.apply s).MadeFrom coupons := by
  cases x with
  | add | clear | merge => cases conversion
  | copyAs width => exact made.copyAs width
  | snapshot => exact made.settled
  | read => exact made.primed

theorem Abreast.symm (abreast : s.Abreast t) : t.Abreast s :=
  ⟨abreast.alike.symm, abreast.right, abreast.left⟩

variable [Tally.ExactSums α]

theorem alike_convert (made : s.MadeFrom coupons) (conversion : x.IsConversion) :
    (x.apply s).Alike s := by
  cases x with
  | add | clear | merge => cases conversion
  | copyAs width => exact alike_copyAs made.holds width
  | snapshot => exact alike_settled made.holds
  | read => exact alike_primed s

theorem Abreast.convert (abreast : s.Abreast t) (conversion : x.IsConversion) :
    (x.apply s).Abreast t := by
  obtain ⟨alike, ⟨coupons, made⟩, right⟩ := abreast
  exact ⟨(alike_convert made conversion).trans alike, ⟨coupons, made.convert conversion⟩, right⟩

theorem Abreast.merge {other source : Sketch α} {few many : List Coupon} (abreast : s.Abreast t)
    (known : other.MadeFrom few) (known' : source.MadeFrom many) (sources : other.Alike source) :
    ((Operation.merge other).apply s).Abreast ((Operation.merge source).apply t) := by
  obtain ⟨alike, ⟨coupons, made⟩, ⟨others, made'⟩⟩ := abreast
  have outcome := alike.merge sources made.holds made'.holds known.holds known'.holds
  simp only [Operation.apply]
  generalize merged : s.merge other = x at outcome
  generalize merged' : t.merge source = y at outcome
  cases outcome with
  | error fault => exact ⟨alike, ⟨coupons, made⟩, ⟨others, made'⟩⟩
  | ok alike => exact ⟨alike, ⟨_, made.merge known merged⟩, ⟨_, made'.merge known' merged'⟩⟩

/-- Sketches that are abreast are so after a move. -/
theorem Abreast.move {move : Move α} (abreast : s.Abreast t) (fair : move.Fair) :
    (move.apply (s, t)).1.Abreast (move.apply (s, t)).2 := by
  obtain ⟨alike, ⟨coupons, made⟩, ⟨others, made'⟩⟩ := abreast
  cases fair with
  | add valued =>
    exact ⟨alike.addCoupon made.holds made'.holds _, ⟨_, made.addCoupon valued⟩, ⟨_, made'.addCoupon valued⟩⟩
  | clear => exact ⟨alike.cleared, ⟨[], .empty ..⟩, ⟨[], .empty ..⟩⟩
  | merge known known' sources =>
    exact Abreast.merge ⟨alike, ⟨coupons, made⟩, ⟨others, made'⟩⟩ known known' sources
  | left conversion => exact Abreast.convert ⟨alike, ⟨coupons, made⟩, ⟨others, made'⟩⟩ conversion
  | right conversion =>
    exact (Abreast.convert ⟨alike.symm, ⟨others, made'⟩, ⟨coupons, made⟩⟩ conversion).symm

theorem Abreast.moves {moves : List (Move α)} (abreast : s.Abreast t) (fair : ∀ move ∈ moves, move.Fair) :
    (moves.foldl Move.apply (s, t)).1.Abreast (moves.foldl Move.apply (s, t)).2 := by
  induction moves generalizing s t with
  | nil => exact abreast
  | cons move rest ih =>
    exact ih (abreast.move (fair move (by simp))) (fun other member => fair other (by simp [member]))

end

/-- Neither the width nor a conversion on one side shows at any moment of two runs. -/
theorem alike_after_moves {α : Type} [Analytic α] [Tally.ExactSums α] {s t : Sketch α}
    {coupons others : List Coupon} (alike : s.Alike t) (left : s.MadeFrom coupons)
    (right : t.MadeFrom others) (moves : List (Move α)) (fair : ∀ move ∈ moves, move.Fair) (n : Nat) :
    let pair := (moves.take n).foldl Move.apply (s, t)
    pair.1.Alike pair.2 ∧ pair.1.AnswersLike pair.2 := by
  intro pair
  have start : s.Abreast t := ⟨alike, ⟨coupons, left⟩, ⟨others, right⟩⟩
  obtain ⟨alike, ⟨_, made⟩, ⟨_, made'⟩⟩ :=
    start.moves (fun move member => fair move (List.mem_of_mem_take member))
  exact ⟨alike, alike.answers made.holds made'.holds⟩

/-- Four-bit registers that have all left the base, one of them for an exception, are copied, merged and presented
another coupon while registers of eight bits go along. -/
theorem alike_after_conversion :
    let s : Sketch Float := empty ⟨4, by decide, by decide⟩ .four .standard
    let t : Sketch Float := empty ⟨4, by decide, by decide⟩ .eight .standard
    let others := (s.addCoupon (.pack 2 30), t.addCoupon (.pack 2 30))
    let stream := .pack 0 20 :: Coupon.row 16 1
    let moves := stream.map (fun c => .both (.add c) (.add c)) ++
      [.left (.copyAs .six), .left (.copyAs .four), .right .snapshot, .both (.merge others.1) (.merge others.2),
        .left .read, .both (.add (.pack 3 25)) (.add (.pack 3 25)), .both .clear .clear]
    (s.Alike t ∧ s.MadeFrom [] ∧ t.MadeFrom [] ∧ ∀ move ∈ moves, move.Fair) ∧
      ((moves.take 17).foldl Move.apply (s, t)).1 = allLeftBase ∧
      ∀ n, ((moves.take n).foldl Move.apply (s, t)).1.AnswersLike
        ((moves.take n).foldl Move.apply (s, t)).2 := by
  intro s t others stream moves
  have alike : s.Alike t := alike_empty ..
  have left : s.MadeFrom [] := .empty ..
  have right : t.MadeFrom [] := .empty ..
  have merge : Move.Fair (.both (.merge others.1) (.merge others.2)) :=
    .merge (left.addCoupon (by decide)) (right.addCoupon (by decide))
      (alike.addCoupon left.holds right.holds _)
  have fair : ∀ move ∈ moves, move.Fair := by
    simp only [moves, List.forall_mem_append, List.forall_mem_map, List.forall_mem_cons, List.not_mem_nil,
      false_imp_iff, implies_true, and_true]
    exact ⟨fun c member => .add ((by decide : ∀ c ∈ stream, 1 ≤ c.value) c member), .left trivial, .left trivial,
      .right trivial, merge, .left trivial, .add (by decide), .clear⟩
  have before : ((moves.take 17).foldl Move.apply (s, t)).1 = allLeftBase := rfl
  exact ⟨⟨alike, left, right, fair⟩, before, fun n => (alike_after_moves alike left right moves fair n).2⟩

end Sketch

end DistinctCount
