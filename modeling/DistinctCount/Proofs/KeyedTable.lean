import DistinctCount.Proofs.Probing
import Mathlib.Data.List.Perm.Basic

/-! Tables whose entries are told apart by a key. The one law they keep is that a search for the key
of an entry ends at that entry: entries are then reachable, and no two of them share a key. -/

namespace DistinctCount.CouponTable

/-- The key of an entry, and the number that probing for a key starts from. -/
structure Keying (κ : Type) where
  ident : Coupon → κ
  home : κ → Nat

variable {κ : Type} [DecidableEq κ] {K : Keying κ} {t u : CouponTable} {k : κ} {index : Nat}
  {c : Coupon}

def find (K : Keying κ) (t : CouponTable) (k : κ) : Probe :=
  t.search (K.home k) (fun entry => K.ident entry = k)

/-- A table in which each entry is found under its key. -/
structure Keyed (K : Keying κ) (t : CouponTable) : Prop where
  size_entries : t.entries.size = t.size
  count_eq : t.count = t.occupied.length
  retrieved : ∀ index, t.entry index ≠ Coupon.empty →
    t.find K (K.ident (t.entry index)) = .found index

theorem overloads_eq_false_iff {count lgSize : Nat} :
    overloads count lgSize = false ↔ 4 * count ≤ 3 * 2 ^ lgSize := by
  rw [overloads, decide_eq_false_iff_not, Nat.not_lt]

theorem load_iff : t.isOverloaded = false ↔ 4 * t.count ≤ 3 * t.size := overloads_eq_false_iff

theorem room_of_load (load : t.isOverloaded = false) : t.count < t.size := by
  have fits := load_iff.mp load
  have positive := t.size_pos
  omega

theorem entry_outside (outside : t.entries.size ≤ index) : t.entry index = Coupon.empty := by
  simp [entry, outside]

theorem lt_of_taken (taken : t.entry index ≠ Coupon.empty) : index < t.entries.size := by
  by_contra outside
  exact taken (entry_outside (Nat.le_of_not_lt outside))

theorem mem_occupied : c ∈ t.occupied ↔ c ≠ Coupon.empty ∧ ∃ index, t.entry index = c := by
  simp only [occupied, List.mem_filter, decide_eq_true_eq, Array.mem_toList_iff]
  constructor
  · rintro ⟨member, taken⟩
    obtain ⟨index, inside, rfl⟩ := Array.mem_iff_getElem.mp member
    exact ⟨taken, index, by simp [entry, inside]⟩
  · rintro ⟨taken, index, rfl⟩
    exact ⟨by simp [entry, lt_of_taken taken], taken⟩

theorem empty_not_mem_occupied : Coupon.empty ∉ t.occupied :=
  fun member => (mem_occupied.mp member).1 rfl

theorem exists_free (sized : t.entries.size = t.size) (room : t.occupied.length < t.size) :
    ∃ index < t.size, t.entry index = Coupon.empty := by
  by_contra full
  have taken : ∀ c ∈ t.entries.toList, c ≠ Coupon.empty := by
    intro c member free
    obtain ⟨index, inside, same⟩ := Array.mem_iff_getElem.mp (Array.mem_toList_iff.mp member)
    exact full ⟨index, by rw [← sized]; exact inside, by simp [entry, inside, same, free]⟩
  have all : t.occupied = t.entries.toList :=
    List.filter_eq_self.mpr (fun c member => by simpa using taken c member)
  rw [all, Array.length_toList, sized] at room
  exact Nat.lt_irrefl _ room

theorem exists_stopsAt (sized : t.entries.size = t.size) (room : t.occupied.length < t.size) (key : Nat)
    (sought : Coupon → Bool) : ∃ index, t.StopsAt key sought index := by
  rcases t.stopsAt_or_exhausted key sought with stopped | ⟨_, never⟩
  · exact stopped
  · obtain ⟨free, inside, empty⟩ := exists_free sized room
    have passed := never free inside
    simp [stops, empty] at passed

theorem entry_of_find_found (found : t.find K k = .found index) :
    t.entry index ≠ Coupon.empty ∧ K.ident (t.entry index) = k := by
  obtain ⟨stopped, taken⟩ := search_found_iff.mp found
  have stop := stopped.stop
  simp only [stops, Bool.or_eq_true, decide_eq_true_eq] at stop
  exact ⟨taken, stop.resolve_left taken⟩

theorem entry_of_find_vacant (vacant : t.find K k = .vacant index) :
    index < t.size ∧ t.entry index = Coupon.empty := by
  obtain ⟨stopped, free⟩ := search_vacant_iff.mp vacant
  exact ⟨stopped.lt_size, free⟩

theorem Keyed.absent_of_find_vacant (keyed : t.Keyed K) (vacant : t.find K k = .vacant index) :
    ∀ c ∈ t.occupied, K.ident c ≠ k := by
  intro c member same
  obtain ⟨taken, other, here⟩ := mem_occupied.mp member
  subst here
  have found := keyed.retrieved other taken
  rw [same, vacant] at found
  cases found

/-- With room left, a search ends at the entry of its key or, if there is none, at a free entry. -/
theorem Keyed.find_cases (keyed : t.Keyed K) (room : t.count < t.size) (k : κ) :
    (∃ index, t.find K k = .found index ∧ t.entry index ∈ t.occupied ∧
      K.ident (t.entry index) = k) ∨
    (∃ index, t.find K k = .vacant index ∧ ∀ c ∈ t.occupied, K.ident c ≠ k) := by
  cases result : t.find K k with
  | found index =>
    obtain ⟨taken, same⟩ := entry_of_find_found result
    exact .inl ⟨index, rfl, mem_occupied.mpr ⟨taken, index, rfl⟩, same⟩
  | vacant index => exact .inr ⟨index, rfl, keyed.absent_of_find_vacant result⟩
  | exhausted =>
    obtain ⟨last, stopped⟩ := exists_stopsAt keyed.size_entries (keyed.count_eq ▸ room) (K.home k)
      (fun entry => K.ident entry = k)
    rw [find, search_of_stopsAt stopped, answer] at result
    split at result <;> cases result

/-- A search passes taken entries of other keys, and ends at the entry of its key or else at a free entry,
before it has visited more entries than there are. -/
theorem Keyed.find_ends (keyed : t.Keyed K) (room : t.count < t.size) (k : κ) :
    ∃ steps < t.size,
      (∀ m < steps, t.entry (t.path (K.home k) m) ≠ Coupon.empty ∧
        K.ident (t.entry (t.path (K.home k) m)) ≠ k) ∧
      ((t.find K k = .found (t.path (K.home k) steps) ∧ K.ident (t.entry (t.path (K.home k) steps)) = k ∧
          t.entry (t.path (K.home k) steps) ∈ t.occupied) ∨
        (t.find K k = .vacant (t.path (K.home k) steps) ∧ t.entry (t.path (K.home k) steps) = Coupon.empty ∧
          ∀ c ∈ t.occupied, K.ident c ≠ k)) := by
  obtain ⟨index, stopped⟩ := exists_stopsAt keyed.size_entries (keyed.count_eq ▸ room) (K.home k)
    (fun entry => K.ident entry = k)
  obtain ⟨steps, enough, here, passed⟩ := stopped.first
  simp only [stops, Bool.or_eq_false_iff, decide_eq_false_iff_not] at passed
  refine ⟨steps, enough, passed, ?_⟩
  rw [here]
  rcases keyed.find_cases room k with ⟨other, found, member, same⟩ | ⟨other, vacant, absent⟩
  · have answered := search_of_stopsAt stopped
    rw [show t.search _ _ = .found other from found, answer] at answered
    split at answered <;> cases answered
    exact .inl ⟨found, same, member⟩
  · have answered := search_of_stopsAt stopped
    rw [show t.search _ _ = .vacant other from vacant, answer] at answered
    split at answered <;> cases answered
    exact .inr ⟨vacant, (entry_of_find_vacant vacant).2, absent⟩

theorem Keyed.find_of_mem (keyed : t.Keyed K) (member : c ∈ t.occupied) :
    ∃ index, t.find K (K.ident c) = .found index ∧ t.entry index = c := by
  obtain ⟨taken, index, rfl⟩ := mem_occupied.mp member
  exact ⟨index, keyed.retrieved index taken, rfl⟩

theorem Keyed.nodup_ident (keyed : t.Keyed K) : (t.occupied.map K.ident).Nodup := by
  rw [List.Nodup, List.pairwise_map, occupied, List.pairwise_filter, List.pairwise_iff_getElem]
  intro i j i_lt j_lt before left right same
  have entry_i : t.entries.toList[i] = t.entry i := by
    simp [entry, show i < t.entries.size by simpa using i_lt]
  have entry_j : t.entries.toList[j] = t.entry j := by
    simp [entry, show j < t.entries.size by simpa using j_lt]
  rw [entry_i] at left same
  rw [entry_j] at right same
  have found := keyed.retrieved i (by simpa using left)
  rw [same, keyed.retrieved j (by simpa using right)] at found
  cases found
  omega

theorem keyed_empty (K : Keying κ) (lgSize : Nat) : (empty lgSize).Keyed K where
  size_entries := size_empty lgSize
  count_eq := by rw [occupied_empty]; rfl
  retrieved := by
    intro index taken
    have member := mem_occupied.mpr ⟨taken, index, rfl⟩
    simp [occupied_empty] at member

private theorem occupied_set (entries : List Coupon) (inside : index < entries.length)
    (taken : c ≠ Coupon.empty) :
    ((entries.set index c).filter (· ≠ Coupon.empty)).Perm
      (c :: (entries.eraseIdx index).filter (· ≠ Coupon.empty)) := by
  have moved := (List.set_perm_cons_eraseIdx inside c).filter (· ≠ Coupon.empty)
  rwa [List.filter_cons_of_pos (by simpa using taken)] at moved

theorem occupied_fill (inside : index < t.entries.size) (free : t.entry index = Coupon.empty)
    (taken : c ≠ Coupon.empty) : (t.fill index c).occupied.Perm (c :: t.occupied) := by
  have rest : t.occupied.Perm
      ((t.entries.toList.eraseIdx index).filter (· ≠ Coupon.empty)) := by
    have bound : index < t.entries.toList.length := by simpa using inside
    have moved := (List.getElem_cons_eraseIdx_perm bound).filter (· ≠ Coupon.empty)
    rw [List.filter_cons_of_neg (by simpa [entry, inside] using free)] at moved
    exact moved.symm
  have added := occupied_set t.entries.toList (by simpa using inside) taken
  simp only [occupied, fill, Array.toList_setIfInBounds] at added rest ⊢
  exact added.trans (rest.symm.cons c)

theorem length_occupied_fill_le (t : CouponTable) (index : Nat) (c : Coupon) :
    (t.fill index c).occupied.length ≤ t.occupied.length + [c].countP (· ≠ Coupon.empty) := by
  simp only [occupied, ← List.countP_eq_length_filter, fill, Array.toList_setIfInBounds]
  by_cases inside : index < t.entries.toList.length
  · rw [List.countP_set inside, List.countP_singleton]
    omega
  · rw [List.set_eq_of_length_le (Nat.le_of_not_lt inside)]
    exact Nat.le_add_right _ _

theorem length_occupied_replace_le (old : t.entry index ≠ Coupon.empty) (c : Coupon) :
    (t.replace index c).occupied.length ≤ t.occupied.length := by
  simp only [occupied, ← List.countP_eq_length_filter, replace, Array.toList_setIfInBounds]
  by_cases inside : index < t.entries.toList.length
  · have here : t.entry index = t.entries.toList[index] := by
      rw [Array.length_toList] at inside
      simp [entry, inside]
    have taken : t.entries.toList[index] ≠ Coupon.empty := here ▸ old
    have some : 0 < t.entries.toList.countP (· ≠ Coupon.empty) :=
      List.countP_pos_iff.mpr ⟨_, List.getElem_mem inside, by simpa using taken⟩
    rw [List.countP_set inside, if_pos (decide_eq_true taken)]
    split_ifs <;> omega
  · rw [List.set_eq_of_length_le (Nat.le_of_not_lt inside)]

theorem occupied_replace (inside : index < t.entries.size) (old : t.entry index ≠ Coupon.empty)
    (taken : c ≠ Coupon.empty) :
    ∃ rest, t.occupied.Perm (t.entry index :: rest) ∧
      (t.replace index c).occupied.Perm (c :: rest) := by
  refine ⟨(t.entries.toList.eraseIdx index).filter (· ≠ Coupon.empty), ?_, ?_⟩
  · have bound : index < t.entries.toList.length := by simpa using inside
    have moved := (List.getElem_cons_eraseIdx_perm bound).filter (· ≠ Coupon.empty)
    have here : t.entry index = t.entries.toList[index] := by simp [entry, inside]
    rw [List.filter_cons_of_pos (by simpa [here] using old)] at moved
    rw [here]
    exact moved.symm
  · simpa only [occupied, replace, Array.toList_setIfInBounds] using
      occupied_set t.entries.toList (by simpa using inside) taken

theorem Keyed.fill (keyed : t.Keyed K) (vacant : t.find K k = .vacant index)
    (taken : c ≠ Coupon.empty) (same : K.ident c = k) : (t.fill index c).Keyed K := by
  obtain ⟨bound, free⟩ := entry_of_find_vacant vacant
  have inside : index < t.entries.size := by rw [keyed.size_entries]; exact bound
  have entries (other : Nat) := t.entry_fill index other c inside
  have passed (sought : Coupon → Bool) (other : Nat) (pass : t.stops sought other = false) :
      (t.fill index c).stops sought other = false := by
    have distinct : other ≠ index := by
      intro equal
      simp [stops, equal, free] at pass
    simpa [stops, entries, distinct] using pass
  refine ⟨by simpa [CouponTable.fill, size] using keyed.size_entries, ?_, ?_⟩
  · rw [(occupied_fill inside free taken).length_eq]
    simp [CouponTable.fill, keyed.count_eq]
  · intro other member
    apply search_found_iff.mpr
    refine ⟨?_, member⟩
    by_cases here : other = index
    · subst here
      have stopped := (search_vacant_iff.mp vacant).1
      simp only [entries, if_true, same]
      exact stopped.transfer rfl (passed _) (by simp [stops, entries, same])
    · simp only [entries, if_neg here] at member ⊢
      have stopped := (search_found_iff.mp (keyed.retrieved other member)).1
      exact stopped.transfer rfl (passed _) (by simp [stops, entries, here])

theorem Keyed.replace (keyed : t.Keyed K) (found : t.find K k = .found index)
    (taken : c ≠ Coupon.empty) (same : K.ident c = k) : (t.replace index c).Keyed K := by
  obtain ⟨old, ident⟩ := entry_of_find_found found
  have inside := lt_of_taken old
  have entries (other : Nat) := t.entry_replace index other c inside
  have stops_eq (k : κ) (other : Nat) :
      (t.replace index c).stops (fun entry => K.ident entry = k) other =
        t.stops (fun entry => K.ident entry = k) other := by
    by_cases here : other = index
    · subst here
      simp [stops, entries, old, taken, same, ident]
    · simp [stops, entries, here]
  refine ⟨by simpa [CouponTable.replace, size] using keyed.size_entries, ?_, ?_⟩
  · obtain ⟨rest, before, after⟩ := occupied_replace inside old taken
    rw [after.length_eq]
    simp [CouponTable.replace, keyed.count_eq, before.length_eq]
  · intro other member
    have kept : t.entry other ≠ Coupon.empty ∧
        K.ident ((t.replace index c).entry other) = K.ident (t.entry other) := by
      rw [entries] at member ⊢
      split at member
      · rename_i here
        subst here
        simp [old, same, ident]
      · rename_i apart
        simp [member, apart]
    obtain ⟨stopped, _⟩ := search_found_iff.mp (keyed.retrieved other kept.1)
    apply search_found_iff.mpr
    refine ⟨?_, member⟩
    rw [kept.2]
    exact stopped.transfer rfl (fun way pass => by rw [stops_eq]; exact pass)
      (by rw [stops_eq]; exact stopped.stop)

end DistinctCount.CouponTable
