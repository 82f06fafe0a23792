import DistinctCount.Proofs.Restoring

/-! What an accepted image says. A reader that gives a result has passed each of its checks, and the result
was in the bytes that it took. -/

namespace DistinctCount

namespace Reader

variable {β γ σ : Type} {reader : Reader β} {next : β → Reader γ} {bytes more rest : List UInt8} {x y : β}
  {z : γ} {condition : Bool} {fault : ImageFault} {part : ImagePart} {count : Nat}

/-- The reader gives the result from these bytes, and leaves the rest of them. -/
def Gives (reader : Reader β) (bytes : List UInt8) (result : β) (rest : List UInt8) : Prop :=
  reader.run bytes = .ok (result, rest)

theorem Gives.pure (given : Gives (pure x) bytes y rest) : x = y ∧ bytes = rest := by
  cases given
  exact ⟨rfl, rfl⟩

theorem not_gives_throw : ¬ Gives (throw fault) bytes x rest := fun given => by cases given

/-- Both steps have gone well, and the second took what the first one left. -/
theorem Gives.bind (given : Gives (reader >>= next) bytes z rest) :
    ∃ x mid, Gives reader bytes x mid ∧ Gives (next x) mid z rest := by
  unfold Gives at given
  rw [StateT.run_bind] at given
  cases first : reader.run bytes with
  | error fault =>
    rw [first] at given
    cases given
  | ok result =>
    rw [first] at given
    exact ⟨result.1, result.2, first, given⟩

theorem Gives.andThen {mid : List UInt8} (first : Gives reader bytes x mid)
    (second : Gives (next x) mid z rest) : Gives (reader >>= next) bytes z rest := by
  unfold Gives at first
  rw [Gives, StateT.run_bind, first]
  exact second

theorem Gives.unless {next : Unit → Reader γ}
    (given : Gives (refuseIf condition fault >>= next) bytes z rest) :
    condition = false ∧ Gives (next ()) bytes z rest := by
  obtain ⟨_, mid, checked, given⟩ := given.bind
  cases condition with
  | true => exact absurd checked not_gives_throw
  | false =>
    obtain ⟨_, rfl⟩ := Gives.pure checked
    exact ⟨rfl, given⟩

theorem Gives.taken {front : List UInt8} (given : Gives (Reader.bytes count part) bytes front rest) :
    count ≤ bytes.length ∧ front = bytes.take count ∧ rest = bytes.drop count := by
  unfold Gives Reader.bytes ensure at given
  simp only [bind_assoc, StateT.run_bind, StateT.run_get, pure_bind] at given
  split_ifs at given with short
  · cases given
  · simp only [StateT.run_pure, List.splitAt_eq, StateT.run_set, pure_bind] at given
    cases given
    exact ⟨Nat.le_of_not_lt short, rfl, rfl⟩

theorem Gives.number {n : Nat} (given : Gives (Reader.number count part) bytes n rest) :
    n = ofLeBytes (bytes.take count) ∧ rest = bytes.drop count := by
  obtain ⟨front, mid, taken, given⟩ := Gives.bind given
  obtain ⟨rfl, rfl⟩ := given.pure
  obtain ⟨_, rfl, rfl⟩ := taken.taken
  exact ⟨rfl, rfl⟩

theorem Gives.float {x : Float} (given : Gives (Reader.float part) bytes x rest) :
    rest = bytes.drop 8 := by
  obtain ⟨n, mid, taken, given⟩ := Gives.bind given
  obtain ⟨_, rfl⟩ := given.pure
  exact taken.number.2

theorem Gives.eq_of_reads (given : Gives reader (bytes ++ more) y rest) (reads : Reads reader bytes x) :
    y = x ∧ rest = more := by
  cases given.symm.trans (reads more)
  exact ⟨rfl, rfl⟩

/-- The next step takes over behind what was written. -/
theorem Gives.after (given : Gives (reader >>= next) (bytes ++ more) z rest) (reads : Reads reader bytes x) :
    Gives (next x) more z rest := by
  obtain ⟨y, mid, first, second⟩ := given.bind
  obtain ⟨rfl, rfl⟩ := first.eq_of_reads reads
  exact second

/-- Coupons are where they are looked for in the bytes. -/
theorem Gives.coupons {coupons : List Coupon}
    (given : Gives (Reader.coupons count part) bytes coupons rest) :
    coupons = (List.range count).map (fun i => couponAt bytes.toArray (4 * i)) ∧
      rest = bytes.drop (4 * count) := by
  obtain ⟨front, mid, taken, given⟩ := Gives.bind given
  obtain ⟨rfl, rfl⟩ := given.pure
  obtain ⟨_, rfl, rfl⟩ := taken.taken
  refine ⟨List.map_congr_left (fun i inside => ?_), rfl⟩
  have fits : 4 * i + 3 < 4 * count := by
    have := List.mem_range.mp inside
    omega
  have same (offset : Nat) (small : offset < 4) :
      (bytes.take (4 * count)).toArray.getD (4 * i + offset) 0 = bytes.toArray.getD (4 * i + offset) 0 := by
    have within : 4 * i + offset < 4 * count := by omega
    simp [Array.getD_eq_getD_getElem?, within]
  have first := same 0 (by decide)
  rw [Nat.add_zero] at first
  simp only [couponAt, first, same 1 (by decide), same 2 (by decide), same 3 (by decide)]

theorem Gives.foldlM {step : σ → β × Nat → Reader σ} (Inv : σ → List β → Prop)
    (one : ∀ state item index left bytes next rest, Inv state (item :: left) →
      Gives (step state (item, index)) bytes next rest → Inv next left ∧ rest = bytes)
    {state final : σ} {items : List β} {index : Nat} (start : Inv state items)
    (given : Gives ((items.zipIdx index).foldlM step state) bytes final rest) :
    Inv final [] ∧ rest = bytes := by
  induction items generalizing state index bytes with
  | nil =>
    obtain ⟨rfl, rfl⟩ := Gives.pure given
    exact ⟨start, rfl⟩
  | cons item left ih =>
    rw [List.zipIdx_cons, List.foldlM_cons] at given
    obtain ⟨next, mid, first, others⟩ := Gives.bind given
    obtain ⟨kept, rfl⟩ := one state item index left bytes next mid start first
    exact ih kept others

end Reader

open Reader (Gives)

namespace Preamble

variable {bytes rest : List UInt8} {preamble : Preamble}

theorem flags_of_read (given : Gives read bytes preamble rest) :
    preamble.flags = Flags.ofByte (bytes.getD 5 0).toNat ∧ rest = bytes.drop 8 := by
  unfold read at given
  obtain ⟨front, mid, taken, given⟩ := given.bind
  obtain ⟨enough, rfl, rfl⟩ := taken.taken
  have sixth : ((bytes.take 8).map UInt8.toNat).getD 5 0 = (bytes.getD 5 0).toNat := by
    have inside : 5 < bytes.length := Nat.lt_of_lt_of_le (by decide) enough
    simp [List.getD_eq_getElem?_getD, inside]
  obtain ⟨_, given⟩ := given.unless
  obtain ⟨_, given⟩ := given.unless
  split at given
  · obtain ⟨_, given⟩ := given.unless
    split at given
    · split at given
      · obtain ⟨_, given⟩ := given.unless
        obtain ⟨rfl, rfl⟩ := given.pure
        exact ⟨congrArg Flags.ofByte sixth, rfl⟩
      · cases given
    · cases given
  · cases given

end Preamble

namespace Store

variable {bytes rest : List UInt8} {preamble : Preamble} {s : Store Float}

theorem mode_cases_of_read (given : Gives (read preamble) bytes s rest) :
    Gives (readList preamble) bytes s rest ∨ Gives (readSet preamble) bytes s rest ∨
      ∃ array rest, s = .registers array ∧ Gives (RegisterArray.read preamble) bytes array rest := by
  unfold read at given
  obtain ⟨_, given⟩ := given.unless
  split at given
  · exact .inl given
  · exact .inr (.inl given)
  · obtain ⟨array, mid, read, given⟩ := given.bind
    obtain ⟨rfl, rfl⟩ := given.pure
    exact .inr (.inr ⟨array, mid, rfl, read⟩)

end Store

namespace Sketch

def layoutOf (bytes : List UInt8) : Layout := (Flags.ofByte (bytes.getD 5 0).toNat).layout

section

variable {β : Type} {reader : Seed → Reader β} {seed : UInt32} {bytes : List UInt8} {result : β}

/-- What a seed that was checked and a whole image come to is what the reader gives. -/
theorem gives_of_checked
    (accepted : (do
      let known ← Seed.check seed
      ((reader known).run' bytes).mapError Fault.image) = .ok result) :
    ∃ known rest, Seed.check seed = .ok known ∧ Gives (reader known) bytes result rest := by
  obtain ⟨known, checked, accepted⟩ := exists_of_bind_eq_ok accepted
  rw [StateT.run'_eq] at accepted
  cases ran : (reader known).run bytes with
  | error fault =>
    rw [ran] at accepted
    cases accepted
  | ok pair =>
    rw [ran] at accepted
    cases accepted
    exact ⟨known, pair.2, checked, ran⟩

theorem checked_of_gives {known : Seed} {rest : List UInt8} (checked : Seed.check seed = .ok known)
    (given : Gives (reader known) bytes result rest) :
    (do
      let known ← Seed.check seed
      ((reader known).run' bytes).mapError Fault.image) = .ok result := by
  unfold Gives at given
  rw [checked]
  change ((reader known).run' bytes).mapError Fault.image = .ok result
  rw [StateT.run'_eq, given]
  rfl

end

/-- What follows the preamble of an accepted image is a store of its precision. -/
theorem exists_preamble_of_ofImage {seed : UInt32} {bytes : List UInt8} {t : Sketch Float}
    (accepted : ofImage seed bytes = .ok t) :
    ∃ preamble rest, Gives Preamble.read bytes preamble (bytes.drop 8) ∧
      preamble.flags.layout = layoutOf bytes ∧ t.precision = preamble.precision ∧
      Gives (Store.read preamble) (bytes.drop 8) t.store rest := by
  obtain ⟨known, _, _, given⟩ := gives_of_checked accepted
  obtain ⟨preamble, mid, first, given⟩ := given.bind
  obtain ⟨flags, rfl⟩ := Preamble.flags_of_read first
  obtain ⟨store, last, body, given⟩ := given.bind
  obtain ⟨rfl, rfl⟩ := given.pure
  exact ⟨preamble, last, first, congrArg Flags.layout flags, rfl, body⟩

end Sketch

end DistinctCount
