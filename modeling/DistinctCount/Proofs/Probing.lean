import DistinctCount.CouponTable
import Mathlib.Data.Fintype.EquivFin
import Mathlib.Data.Nat.ModEq
import Mathlib.Data.Nat.Prime.Basic

/-! Open addressing. An odd stride leads past every entry, so a table with a free entry answers each
search, and filling the entry that a search ends at keeps every other search as it was. -/

namespace DistinctCount.CouponTable

variable {t u : CouponTable} {sought : Coupon → Bool} {key index : Nat} {c : Coupon}

/-- The entry that probing for a key visits after some steps. -/
def path (t : CouponTable) (key steps : Nat) : Nat :=
  (key + steps * stride t.lgSize key) % t.size

/-- A visit ends a search at a free entry or at one that is sought. -/
def stops (t : CouponTable) (sought : Coupon → Bool) (index : Nat) : Bool :=
  t.entry index = Coupon.empty || sought (t.entry index)

theorem size_pos (t : CouponTable) : 0 < t.size := Nat.two_pow_pos t.lgSize

theorem path_lt (t : CouponTable) (key steps : Nat) : t.path key steps < t.size :=
  Nat.mod_lt _ t.size_pos

theorem path_injective (t : CouponTable) (key : Nat) {i j : Nat} (i_lt : i < t.size)
    (j_lt : j < t.size) (same : t.path key i = t.path key j) : i = j := by
  have coprime : Nat.gcd t.size (stride t.lgSize key) = 1 := by
    have odd : Nat.Coprime 2 (stride t.lgSize key) := by
      rw [Nat.coprime_two_left, Nat.odd_iff]
      exact stride_odd t.lgSize key
    exact Nat.Coprime.pow_left t.lgSize odd
  have shifted : i * stride t.lgSize key ≡ j * stride t.lgSize key [MOD t.size] :=
    Nat.ModEq.add_left_cancel' key same
  have congruent := Nat.ModEq.cancel_right_of_coprime coprime shifted
  exact Nat.ModEq.eq_of_lt_of_lt congruent i_lt j_lt

/-- The stride is odd and the size a power of two, so no entry is left out. -/
theorem path_surjective (t : CouponTable) (key : Nat) (inside : index < t.size) :
    ∃ steps < t.size, t.path key steps = index := by
  let visit : Fin t.size → Fin t.size := fun i => ⟨t.path key i, t.path_lt key i⟩
  have injective : Function.Injective visit := by
    intro i j same
    exact Fin.ext (path_injective t key i.isLt j.isLt (congrArg Fin.val same))
  obtain ⟨steps, same⟩ := Finite.injective_iff_surjective.mp injective ⟨index, inside⟩
  exact ⟨steps, steps.isLt, congrArg Fin.val same⟩

/-- What a search answers once it stops at an entry. -/
def answer (t : CouponTable) (index : Nat) : Probe :=
  if t.entry index = Coupon.empty then .vacant index else .found index

private theorem probe_of_stop (t : CouponTable) (sought : Coupon → Bool) (stride : Nat)
    {steps start n : Nat} (enough : n < steps)
    (before : ∀ m < n, t.stops sought ((start + m * stride) % t.size) = false)
    (stop : t.stops sought ((start + n * stride) % t.size) = true) :
    t.probe sought stride steps (start % t.size) = t.answer ((start + n * stride) % t.size) := by
  induction n generalizing steps start with
  | zero =>
    obtain ⟨steps, rfl⟩ : ∃ k, steps = k + 1 := ⟨steps - 1, by omega⟩
    simp only [Nat.zero_mul, Nat.add_zero] at stop ⊢
    simp only [stops, Bool.or_eq_true, decide_eq_true_eq] at stop
    by_cases free : t.entry (start % t.size) = Coupon.empty
    · simp [probe, answer, free]
    · simp [probe, answer, free, stop.resolve_left free]
  | succ n ih =>
    obtain ⟨steps, rfl⟩ : ∃ k, steps = k + 1 := ⟨steps - 1, by omega⟩
    have here := before 0 (by omega)
    simp only [Nat.zero_mul, Nat.add_zero, stops, Bool.or_eq_false_iff, decide_eq_false_iff_not]
      at here
    have shift (m : Nat) : start + (m + 1) * stride = start + stride + m * stride := by
      rw [Nat.succ_mul]
      omega
    have next : t.probe sought stride steps ((start + stride) % t.size) =
        t.answer ((start + stride + n * stride) % t.size) := ih (by omega)
      (fun m below => by simpa [shift] using before (m + 1) (by omega)) (by simpa [shift] using stop)
    rw [probe, if_neg here.1, if_neg (by simp [here.2]), Nat.mod_add_mod, next, shift]

private theorem probe_of_no_stop (t : CouponTable) (sought : Coupon → Bool) (stride steps start : Nat)
    (never : ∀ m < steps, t.stops sought ((start + m * stride) % t.size) = false) :
    t.probe sought stride steps (start % t.size) = .exhausted := by
  induction steps generalizing start with
  | zero => rfl
  | succ steps ih =>
    have here := never 0 (by omega)
    simp only [Nat.zero_mul, Nat.add_zero, stops, Bool.or_eq_false_iff, decide_eq_false_iff_not]
      at here
    have next := ih (start + stride) (fun m below => by
      have later := never (m + 1) (by omega)
      rwa [show start + (m + 1) * stride = start + stride + m * stride by rw [Nat.succ_mul]; omega]
        at later)
    rw [probe, if_neg here.1, if_neg (by simp [here.2]), Nat.mod_add_mod, next]

/-- A search stops at the first entry of its path that stops it. -/
structure StopsAt (t : CouponTable) (key : Nat) (sought : Coupon → Bool) (index : Nat) : Prop where
  first : ∃ n < t.size, t.path key n = index ∧ ∀ m < n, t.stops sought (t.path key m) = false
  stop : t.stops sought index = true

theorem StopsAt.lt_size (stopped : t.StopsAt key sought index) : index < t.size := by
  obtain ⟨n, _, rfl, _⟩ := stopped.first
  exact t.path_lt key n

theorem search_of_stopsAt (found : t.StopsAt key sought index) :
    t.search key sought = t.answer index := by
  obtain ⟨⟨n, enough, here, before⟩, stop⟩ := found
  subst here
  exact probe_of_stop t sought (stride t.lgSize key) enough before stop

/-- Either a search stops at some entry, or none of the entries would stop it. -/
theorem stopsAt_or_exhausted (t : CouponTable) (key : Nat) (sought : Coupon → Bool) :
    (∃ index, t.StopsAt key sought index) ∨
      (t.search key sought = .exhausted ∧ ∀ index < t.size, t.stops sought index = false) := by
  by_cases some : ∃ n, n < t.size ∧ t.stops sought (t.path key n) = true
  · left
    have least := Nat.find_spec some
    refine ⟨_, ⟨Nat.find some, least.1, rfl, fun m below => ?_⟩, least.2⟩
    have earlier := Nat.find_min some below
    simp only [not_and, Bool.not_eq_true] at earlier
    exact earlier (by omega)
  · right
    have never (n : Nat) (enough : n < t.size) : t.stops sought (t.path key n) = false := by
      by_contra stop
      exact some ⟨n, enough, by simpa using stop⟩
    refine ⟨probe_of_no_stop t sought (stride t.lgSize key) t.size key never, fun index inside => ?_⟩
    obtain ⟨n, enough, rfl⟩ := t.path_surjective key inside
    exact never n enough

theorem search_found_iff :
    t.search key sought = .found index ↔
      t.StopsAt key sought index ∧ t.entry index ≠ Coupon.empty := by
  constructor
  · intro found
    rcases t.stopsAt_or_exhausted key sought with ⟨last, stopped⟩ | ⟨exhausted, _⟩
    · rw [search_of_stopsAt stopped, answer] at found
      split at found <;> cases found
      rename_i taken
      exact ⟨stopped, taken⟩
    · rw [exhausted] at found
      cases found
  · rintro ⟨stopped, taken⟩
    rw [search_of_stopsAt stopped, answer, if_neg taken]

theorem search_vacant_iff :
    t.search key sought = .vacant index ↔
      t.StopsAt key sought index ∧ t.entry index = Coupon.empty := by
  constructor
  · intro vacant
    rcases t.stopsAt_or_exhausted key sought with ⟨last, stopped⟩ | ⟨exhausted, _⟩
    · rw [search_of_stopsAt stopped, answer] at vacant
      split at vacant <;> cases vacant
      rename_i free
      exact ⟨stopped, free⟩
    · rw [exhausted] at vacant
      cases vacant
  · rintro ⟨stopped, free⟩
    rw [search_of_stopsAt stopped, answer, if_pos free]

/-- A search ends where it did as long as no entry on its way starts to stop it. -/
theorem StopsAt.transfer (stopped : t.StopsAt key sought index) (same : u.lgSize = t.lgSize)
    (passed : ∀ other, t.stops sought other = false → u.stops sought other = false)
    (stop : u.stops sought index = true) : u.StopsAt key sought index := by
  obtain ⟨⟨n, enough, here, before⟩, _⟩ := stopped
  have way (m : Nat) : u.path key m = t.path key m := by simp [path, size, same]
  refine ⟨⟨n, by simpa [size, same] using enough, by rw [way, here], fun m below => ?_⟩, stop⟩
  rw [way]
  exact passed _ (before m below)

end DistinctCount.CouponTable
