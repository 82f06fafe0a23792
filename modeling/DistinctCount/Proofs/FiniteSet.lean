import DistinctCount.Proofs.Guards
import Mathlib.Data.Finset.Card

namespace DistinctCount.CouponSet

variable {s : CouponSet} {c : Coupon} {presented coupons : List Coupon}

def lgMaxSize : Nat := 18

def members (s : CouponSet) : Finset Coupon := s.coupons.toFinset

def visit (s : CouponSet) (c : Coupon) (steps : Nat) : Coupon := s.table.entry (s.table.path c.slot steps)

/-- Adds a coupon that is not yet a member, and tells whether it was added. -/
def update? (s : CouponSet) (c : Coupon) : Option (CouponSet × Bool) := do
  match ← s.search? c with
  | .vacant index =>
    let _entry ← s.table.entries[index]?
    let _count ← Word.add 32 s.count 1
    return (⟨s.table.fill index c⟩, true)
  | _ => return (s, false)

def grown? (s : CouponSet) : Option CouponSet := do
  let lgSize ← Word.add 8 s.table.lgSize 1
  let _size ← Word.shl Word.index 1 lgSize
  s.coupons.foldlM (fun grown c => return (← grown.update? c).1) (empty lgSize)

/-- What becomes of an empty table when coupons are presented to it and it is doubled, and the coupons that
were presented. A table that is overloaded takes no coupon before it is doubled. -/
inductive Built : CouponSet → List Coupon → Prop
  | empty {lgSize : Nat} (least : lgMinSize ≤ lgSize) (most : lgSize ≤ lgMaxSize) : Built (empty lgSize) []
  | insert {s : CouponSet} {presented : List Coupon} {c : Coupon} (built : Built s presented)
    (light : s.isOverloaded = false) (taken : c ≠ Coupon.empty) : Built (s.insert c) (c :: presented)
  | grown {s : CouponSet} {presented : List Coupon} (built : Built s presented)
    (small : s.table.lgSize < lgMaxSize) : Built s.grown presented

theorem mem_members : c ∈ s.members ↔ c ∈ s.coupons := List.mem_toFinset

theorem card_members (keyed : s.table.Keyed keying) : s.members.card = s.count := by
  rw [members, List.toFinset_card_of_nodup (nodup_coupons keyed), count_eq keyed]

theorem members_congr {t : CouponSet} (perm : s.coupons.Perm t.coupons) : s.members = t.members :=
  List.toFinset_eq_of_perm _ _ perm

/-- A set of which every member is found, in a table that one coupon at most has overloaded. -/
structure Roomy (s : CouponSet) : Prop where
  keyed : s.table.Keyed keying
  least : lgMinSize ≤ s.table.lgSize
  most : s.table.lgSize ≤ lgMaxSize
  nearly : 4 * s.count ≤ 3 * s.table.size + 4

theorem Roomy.size_ge (roomy : s.Roomy) : 32 ≤ s.table.size :=
  Nat.pow_le_pow_right Nat.two_pos roomy.least

theorem Roomy.size_le (roomy : s.Roomy) : s.table.size ≤ 2 ^ 18 :=
  Nat.pow_le_pow_right Nat.two_pos roomy.most

theorem Roomy.room (roomy : s.Roomy) : s.count < s.table.size := by
  have large := roomy.size_ge
  have nearly := roomy.nearly
  omega

theorem Roomy.searchable (roomy : s.Roomy) : s.table.Searchable :=
  roomy.keyed.searchable roomy.room (Nat.le_trans roomy.most (by decide))

theorem roomy_empty {lgSize : Nat} (least : lgMinSize ≤ lgSize) (most : lgSize ≤ lgMaxSize) :
    (empty lgSize).Roomy :=
  ⟨CouponTable.keyed_empty _ _, least, most, Nat.zero_le _⟩

theorem Roomy.insert (roomy : s.Roomy) (light : s.isOverloaded = false) (taken : c ≠ Coupon.empty) :
    (s.insert c).Roomy ∧ (s.insert c).members = Insert.insert c s.members := by
  by_cases known : c ∈ s.coupons
  · rw [insert_of_mem roomy.keyed known, Finset.insert_eq_of_mem (mem_members.mpr known)]
    exact ⟨roomy, rfl⟩
  · obtain ⟨keyed, all, size⟩ := insert_of_not_mem roomy.keyed roomy.room taken known
    have fits : 4 * s.count ≤ 3 * s.table.size := CouponTable.load_iff.mp light
    have counted := count_insert_le s c
    refine ⟨⟨keyed, size ▸ roomy.least, size ▸ roomy.most, ?_⟩, ?_⟩
    · rw [CouponTable.size, size]
      exact Nat.le_trans (Nat.mul_le_mul_left 4 counted) (Nat.add_le_add_right fits 4)
    · rw [members, List.toFinset_eq_of_perm _ _ all, List.toFinset_cons]
      rfl

/-- Doubling keeps the members and leaves room for more. -/
theorem Roomy.grown (roomy : s.Roomy) (small : s.table.lgSize < lgMaxSize) :
    s.grown.Roomy ∧ s.grown.members = s.members ∧ s.grown.isOverloaded = false ∧
      s.grown.table.size = 2 * s.table.size := by
  have room := roomy.room
  have large := roomy.size_ge
  have nearly := roomy.nearly
  obtain ⟨keyed, all, size⟩ := grown_spec roomy.keyed (by omega)
  have counted : s.grown.count = s.count := by
    rw [count_eq keyed, all.length_eq, count_eq roomy.keyed]
  have twice : s.grown.table.size = 2 * s.table.size := by
    rw [CouponTable.size, size, Nat.pow_succ']
    rfl
  have light : 4 * s.grown.count ≤ 3 * s.grown.table.size := by
    rw [counted, twice]
    omega
  refine ⟨⟨keyed, ?_, ?_, Nat.le_add_right_of_le light⟩, members_congr all, CouponTable.load_iff.mpr light,
    twice⟩
  · rw [size]
    exact Nat.le_succ_of_le roomy.least
  · rw [size]
    exact small

theorem Built.roomy (built : s.Built presented) : s.Roomy ∧ s.members = presented.toFinset := by
  induction built with
  | empty least most =>
    refine ⟨roomy_empty least most, ?_⟩
    rw [members, coupons, CouponSet.empty, CouponTable.occupied_empty]
  | insert _ light taken known =>
    obtain ⟨roomy, held⟩ := known
    obtain ⟨next, added⟩ := roomy.insert light taken
    exact ⟨next, by rw [added, held, List.toFinset_cons]⟩
  | grown _ small known =>
    obtain ⟨roomy, held⟩ := known
    obtain ⟨next, same, _⟩ := roomy.grown small
    exact ⟨next, same.trans held⟩

/-- Coupons can be presented one after the other until the last of them overloads the table. -/
theorem Built.insertAll (built : s.Built presented) (taken : ∀ c ∈ coupons, c ≠ Coupon.empty)
    (fits : 4 * (s.count + coupons.length) ≤ 3 * s.table.size + 4) :
    (s.insertAll coupons).Built (coupons.reverse ++ presented) := by
  induction coupons generalizing s presented with
  | nil => exact built
  | cons c rest ih =>
    rw [List.length_cons] at fits
    have light : s.isOverloaded = false := CouponTable.load_iff.mpr (by
      change 4 * s.count ≤ 3 * s.table.size
      omega)
    have counted := count_insert_le s c
    have next := ih (built.insert light (taken c List.mem_cons_self))
      (fun d member => taken d (List.mem_cons_of_mem c member))
      (by rw [CouponTable.size, lgSize_insert]; change _ ≤ 3 * s.table.size + 4; omega)
    rwa [List.reverse_cons, List.append_assoc]

theorem update?_eq (roomy : s.Roomy) (c : Coupon) : s.update? c = some (s.insert c, decide (c ∉ s.members)) := by
  have most := roomy.size_le
  have room := roomy.room
  have count : Word.add 32 s.count 1 = some (s.count + 1) := Word.add_eq (by omega)
  have search : s.search c = s.table.find keying c := rfl
  rw [update?, search?_eq roomy.searchable, Option.bind_eq_bind, Option.bind_some, CouponSet.insert]
  rcases roomy.keyed.find_cases room c with ⟨index, found, member, same⟩ | ⟨index, vacant, absent⟩
  · have known : c ∈ s.members := mem_members.mpr (same ▸ member)
    simp [search, found, known]
  · have fresh : c ∉ s.members := fun known => absent c (mem_members.mp known) rfl
    have below := (CouponTable.entry_of_find_vacant vacant).1
    simp [search, vacant, fresh, CouponTable.getElem?_entries roomy.searchable.sized below, count]

private theorem updateAll?_eq (roomy : s.Roomy) (taken : ∀ c ∈ coupons, c ≠ Coupon.empty)
    (fits : 4 * (s.count + coupons.length) ≤ 3 * s.table.size) :
    coupons.foldlM (fun set c => return (← set.update? c).1) s = some (s.insertAll coupons) := by
  induction coupons generalizing s with
  | nil => rfl
  | cons c rest ih =>
    rw [List.length_cons] at fits
    have light : s.isOverloaded = false := CouponTable.load_iff.mpr (by
      change 4 * s.count ≤ 3 * s.table.size
      omega)
    have counted := count_insert_le s c
    have next := (roomy.insert light (taken c List.mem_cons_self)).1
    have others := ih next (fun d member => taken d (List.mem_cons_of_mem c member))
      (by rw [CouponTable.size, lgSize_insert]; change _ ≤ 3 * s.table.size; omega)
    rw [List.foldlM_cons, update?_eq roomy]
    exact others

theorem grown?_eq (roomy : s.Roomy) (small : s.table.lgSize < lgMaxSize) : s.grown? = some s.grown := by
  have limit : lgMaxSize = 18 := rfl
  have room := roomy.room
  have large := roomy.size_ge
  have nearly := roomy.nearly
  have lgSize : Word.add 8 s.table.lgSize 1 = some (s.table.lgSize + 1) := Word.add_eq (by omega)
  have size : Word.shl Word.index 1 (s.table.lgSize + 1) = some (2 ^ (s.table.lgSize + 1)) :=
    Word.shl_one (Nat.lt_of_le_of_lt small (by decide))
  rw [grown?, lgSize, Option.bind_eq_bind, Option.bind_some, size, Option.bind_some]
  refine updateAll?_eq (roomy_empty (Nat.le_succ_of_le roomy.least) small)
    (fun c member => (CouponTable.mem_occupied.mp member).1) ?_
  rw [← count_eq roomy.keyed]
  change 4 * (0 + s.count) ≤ 3 * 2 ^ (s.table.lgSize + 1)
  rw [Nat.pow_succ']
  change 4 * (0 + s.count) ≤ 3 * (2 * s.table.size)
  omega

/-- A search passes entries that are taken by other coupons, and ends at the coupon if it is a member, or else
at a free entry, before it has visited more entries than there are. -/
theorem Roomy.search_ends (roomy : s.Roomy) (c : Coupon) :
    ∃ steps < s.table.size, (∀ m < steps, s.visit c m ≠ c ∧ s.visit c m ≠ Coupon.empty) ∧
      (c ∈ s.members → s.visit c steps = c ∧ s.search? c = some (.found (s.table.path c.slot steps))) ∧
      (c ∉ s.members →
        s.visit c steps = Coupon.empty ∧ s.search? c = some (.vacant (s.table.path c.slot steps))) := by
  have ran := search?_eq roomy.searchable c
  obtain ⟨steps, enough, passed, ends⟩ := roomy.keyed.find_ends roomy.room c
  refine ⟨steps, enough, fun m before => (passed m before).symm, ?_⟩
  rw [ran, show s.search c = s.table.find keying c from rfl]
  rcases ends with ⟨found, same, member⟩ | ⟨vacant, free, absent⟩
  · have same : s.visit c steps = c := same
    have known : c ∈ s.members := mem_members.mpr (same ▸ member)
    exact ⟨fun _ => ⟨same, congrArg some found⟩, fun fresh => absurd known fresh⟩
  · have fresh : c ∉ s.members := fun known => absent c (mem_members.mp known) rfl
    exact ⟨fun known => absurd known fresh, fun _ => ⟨free, congrArg some vacant⟩⟩

/-- Whatever was done to an empty table, its set is the set of the coupons that were presented: it counts them,
it knows them, it adds a coupon if and only if it is new, and a larger table holds the same. A search ends at the
coupon or at a free entry after no more visits than there are entries, since its way leads past all of them and
one is free. None of these steps stops. -/
theorem members_of_built (built : s.Built presented) :
    (s.members = presented.toFinset ∧ s.count = s.members.card) ∧
      (∀ c, s.contains? c = some (decide (c ∈ s.members))) ∧
      s.isOverloaded? = some s.isOverloaded ∧
      (s.isOverloaded = false → ∀ c, c ≠ Coupon.empty →
        s.update? c = some (s.insert c, decide (c ∉ s.members)) ∧
          (s.insert c).members = Insert.insert c s.members) ∧
      (s.table.lgSize < lgMaxSize → s.grown? = some s.grown ∧ s.grown.members = s.members ∧
        s.grown.isOverloaded = false ∧ s.grown.table.size = 2 * s.table.size) ∧
      (∀ c, ∃ steps < s.table.size, (∀ m < steps, s.visit c m ≠ c ∧ s.visit c m ≠ Coupon.empty) ∧
        (c ∈ s.members →
          s.visit c steps = c ∧ s.search? c = some (.found (s.table.path c.slot steps))) ∧
        (c ∉ s.members → s.visit c steps = Coupon.empty ∧
          s.search? c = some (.vacant (s.table.path c.slot steps)))) ∧
      (∀ c : Coupon, ∀ index < s.table.size, ∃ steps < s.table.size, s.table.path c.slot steps = index) ∧
      ∃ index < s.table.size, s.table.entry index = Coupon.empty := by
  obtain ⟨roomy, held⟩ := built.roomy
  have searchable := roomy.searchable
  refine ⟨⟨held, (card_members roomy.keyed).symm⟩, fun c => ?_, ?_, fun light c taken => ?_, fun small => ?_,
    roomy.search_ends, fun c index => s.table.path_surjective c.slot,
    CouponTable.exists_free searchable.sized searchable.room⟩
  · rw [contains?_eq searchable, Option.some.injEq, Bool.eq_iff_iff, contains_iff roomy.keyed roomy.room,
      decide_eq_true_iff, mem_members]
  · exact isOverloaded?_eq searchable.sized searchable.small (Nat.le_of_lt roomy.room)
  · exact ⟨update?_eq roomy c, (roomy.insert light taken).2⟩
  · exact ⟨grown?_eq roomy small, (roomy.grown small).2⟩

/-- A table that the last of twenty-five coupons has overloaded, doubled. -/
theorem members_of_built_twentyFive :
    let coupons := (List.range 25).map (Coupon.pack · 1)
    let s := ((empty 5).insertAll coupons).grown
    s.Built coupons.reverse ∧ s.isOverloaded = false ∧ s.count = 25 ∧
      s.contains? (.pack 24 1) = some true ∧ s.contains? (.pack 24 2) = some false ∧
        s.update? (.pack 24 1) = some (s.insert (.pack 24 1), false) ∧
          s.update? (.pack 24 2) = some (s.insert (.pack 24 2), true) := by
  intro coupons s
  have start : (empty 5).Built [] := .empty (Nat.le_refl 5) (by decide)
  have filled : ((empty 5).insertAll coupons).Built (coupons.reverse ++ []) :=
    start.insertAll (by decide) (by decide)
  rw [List.append_nil] at filled
  have small : ((empty 5).insertAll coupons).table.lgSize < lgMaxSize := by
    rw [lgSize_insertAll]
    decide
  have built : s.Built coupons.reverse := filled.grown small
  obtain ⟨_, _, _, _, doubled, _⟩ := members_of_built filled
  have light := (doubled small).2.2.1
  obtain ⟨⟨held, counted⟩, known, _, added, _⟩ := members_of_built built
  have member : Coupon.pack 24 1 ∈ s.members := held ▸ (by decide)
  have absent : Coupon.pack 24 2 ∉ s.members := held ▸ (by decide)
  refine ⟨built, light, ?_, ?_, ?_, ?_, ?_⟩
  · rw [counted, held]
    decide
  · rw [known, decide_eq_true member]
  · rw [known, decide_eq_false absent]
  · rw [(added light _ (by decide)).1, decide_eq_false (not_not_intro member)]
  · rw [(added light _ (by decide)).1, decide_eq_true absent]

end DistinctCount.CouponSet
