import DistinctCount.Proofs.Restoring

/-! Registers whose table of exceptions was made elsewhere, and whose spare bits are anyone's. They mirror
registers that were built here: both read alike and are raised alike, so that what is known of the ones is
known of the others. -/

namespace DistinctCount

namespace Registers

variable {p : Precision} {base slot value : Nat} {r s : Registers} {cells : Nibbles}
  {exceptions : Option Exceptions}

/-- Registers that read alike. The table of the first ones need not have grown as that of the second ones
did, as long as it can be searched. -/
inductive Mirrors (p : Precision) : Registers → Registers → Prop
  | four {cells : Nibbles} {exceptions exceptions' : Option Exceptions} :
    (∀ e ∈ exceptions, e.Serviceable ∧ e.precision = p ∧ e.bindings ≠ []) →
    (∀ slot, lookup exceptions slot = lookup exceptions' slot) →
    Mirrors p (.four cells exceptions) (.four cells exceptions')
  | six {cells others : Sextets} :
    cells.bytes.size = others.bytes.size → (∀ slot < p.size, cells.get slot = others.get slot) →
    Mirrors p (.six cells) (.six others)
  | eight {cells : Octets} : Mirrors p (.eight cells) (.eight cells)

theorem Sound.mirrors (sound : r.Sound p base) : r.Mirrors p r := by
  have packed := sound.packed
  cases r with
  | four cells exceptions =>
    have agrees : Agrees p base cells exceptions := packed
    refine .four (fun e member => ?_) (fun _ => rfl)
    obtain ⟨sound, precision, used⟩ := agrees.sound e member
    exact ⟨sound.serviceable, precision, used⟩
  | six cells => exact .six rfl (fun _ _ => rfl)
  | eight cells => exact .eight

theorem Mirrors.width (mirrors : r.Mirrors p s) : r.width = s.width := by
  cases mirrors <;> rfl

theorem Mirrors.get (mirrors : r.Mirrors p s) (base : Nat) (inside : slot < p.size) :
    r.get base slot = s.get base slot := by
  cases mirrors with
  | four _ alike => rw [get_four, get_four, alike]
  | six _ alike => exact alike slot inside
  | eight => rfl

private theorem mirrors_encode {exceptions' : Option Exceptions}
    (kept : ∀ e ∈ exceptions, e.Serviceable ∧ e.precision = p ∧ e.bindings ≠ [])
    (agrees : Agrees p base cells exceptions')
    (alike : ∀ slot, lookup exceptions slot = lookup exceptions' slot) (inside : slot < p.size)
    (free : lookup exceptions' slot = none) (bound : value ≤ Coupon.maxValue) :
    (encode p base cells exceptions slot value).Mirrors p (encode p base cells exceptions' slot value) := by
  unfold encode
  split_ifs with small
  · exact .four kept alike
  · have fifteen : token = 15 := rfl
    have storable : Exceptions.Storable slot value := Exceptions.storable_of_pos (by omega) bound
    obtain ⟨left, looked⟩ := lookup_insert (fun e member => ⟨(kept e member).1, (kept e member).2.1⟩)
      inside storable ((alike slot).trans free)
    obtain ⟨_, looked'⟩ := lookup_insert
      (fun e member => ⟨(agrees.sound e member).1.serviceable, (agrees.sound e member).2.1⟩) inside storable free
    refine .four (fun e member => ?_) (fun other => ?_)
    · obtain rfl := Option.some.inj member
      exact left
    · rw [looked, looked', alike]

private theorem mirrors_replace {exceptions' : Option Exceptions}
    (kept : ∀ e ∈ exceptions, e.Serviceable ∧ e.precision = p ∧ e.bindings ≠ [])
    (agrees : Agrees p base cells exceptions')
    (alike : ∀ slot, lookup exceptions slot = lookup exceptions' slot) (inside : slot < p.size) {old : Nat}
    (held : lookup exceptions' slot = some old) (larger : old ≤ value) (bound : value ≤ Coupon.maxValue) :
    Mirrors p (four cells (exceptions.map (·.replace slot value)))
      (four cells (exceptions'.map (·.replace slot value))) := by
  have fifteen : token = 15 := rfl
  have least := (agrees.range slot old held).1
  have storable : Exceptions.Storable slot value := Exceptions.storable_of_pos (by omega) bound
  cases exceptions' with
  | none => cases held
  | some f =>
    cases exceptions with
    | none => cases (alike slot).trans held
    | some e =>
      obtain ⟨serviceable, rfl, _⟩ := kept e rfl
      obtain ⟨sound, precision, _⟩ := agrees.sound f rfl
      have held' : e.get? slot = some old := (alike slot).trans held
      obtain ⟨serviceable', ⟨rest, _, after⟩, same⟩ := serviceable.replace_spec inside storable held'
      refine .four (fun g member => ?_) (fun other => ?_)
      · obtain rfl := Option.some.inj member
        refine ⟨serviceable', same, fun none => ?_⟩
        rw [none] at after
        exact List.cons_ne_nil _ _ (List.nil_perm.mp after)
      · have left := Exceptions.get?_replace serviceable inside storable held' other
        have right := Exceptions.get?_replace sound.serviceable (precision.symm ▸ inside) storable held other
        have same : e.get? other = f.get? other := alike other
        exact left.trans (same ▸ right.symm)

theorem Mirrors.put (mirrors : r.Mirrors p s) (sound : s.Sound p base) (inside : slot < p.size)
    (raised : s.get base slot ≤ value) (bound : value ≤ Coupon.maxValue) :
    (r.put p base slot value).Mirrors p (s.put p base slot value) := by
  have limit : Coupon.maxValue = 63 := rfl
  cases mirrors with
  | @four cells exceptions exceptions' kept alike =>
    have agrees : Agrees p base cells exceptions' := sound.packed
    cases held : lookup exceptions' slot with
    | none =>
      obtain ⟨inline, _⟩ := agrees.get_inline inside held
      simp only [Registers.put, if_neg (Nat.ne_of_lt inline)]
      exact mirrors_encode kept agrees alike inside held bound
    | some old =>
      obtain ⟨marked, same⟩ := agrees.get_held held
      simp only [Registers.put, if_pos marked]
      exact mirrors_replace kept agrees alike inside held (same ▸ raised) bound
  | @six cells others size alike =>
    have fits : Sextets.index slot + 1 < others.bytes.size :=
      sound.packed.1 ▸ Sextets.inside_of_lt p.size_mod_four inside
    refine .six (by rw [Sextets.size_put, Sextets.size_put, size]) (fun other below => ?_)
    rw [Sextets.get_put cells slot other value (size ▸ fits) (by omega),
      Sextets.get_put others slot other value fits (by omega), alike other below]
  | eight => exact .eight

/-- What mirrors registers in good order can be read again. -/
theorem Mirrors.readable (mirrors : r.Mirrors p s) (sound : s.Sound p base) : r.Readable p base := by
  cases mirrors with
  | @four cells exceptions exceptions' kept alike =>
    have agrees : Agrees p base cells exceptions' := sound.packed
    have empty (e : Exceptions) (serviceable : e.Serviceable) (used : e.bindings ≠ [])
        (none : ∀ slot, e.get? slot = none) : False := by
      obtain ⟨⟨slot, value⟩, member⟩ := List.exists_mem_of_ne_nil _ used
      have held := (Exceptions.get?_eq_some_iff serviceable.keyed serviceable.room).mpr member
      rw [none slot] at held
      cases held
    have same : (Exceptions.bindingsOf exceptions).Perm (Exceptions.bindingsOf exceptions') ∧
        (Registers.four cells exceptions).exceptionCount = (Registers.four cells exceptions').exceptionCount := by
      cases exceptions with
      | none =>
        cases exceptions' with
        | none => exact ⟨.refl _, rfl⟩
        | some f =>
          obtain ⟨sound, _, used⟩ := agrees.sound f rfl
          exact (empty f sound.serviceable used (fun slot => (alike slot).symm)).elim
      | some e =>
        obtain ⟨serviceable, _, used⟩ := kept e rfl
        cases exceptions' with
        | none => exact (empty e serviceable used alike).elim
        | some f =>
          have sound := (agrees.sound f rfl).1
          have perm := Exceptions.bindings_perm serviceable sound.serviceable alike
          refine ⟨perm, ?_⟩
          exact (Exceptions.count_eq serviceable.keyed).trans
            (perm.length_eq.trans (Exceptions.count_eq sound.keyed).symm)
    exact ⟨agrees.size, agrees.covered.of_perm same.1 alike same.2, kept⟩
  | six size _ => exact size.trans sound.packed.1
  | eight => exact sound.packed.1

/-- Tokens and exceptions that belong to each other agree with any table that is looked up alike. -/
private theorem Covered.agrees {exceptions' : Option Exceptions} (covered : Covered p base cells exceptions)
    (size : cells.bytes.size = Nibbles.byteCount p.size)
    (sound : ∀ e ∈ exceptions', e.Sound ∧ e.precision = p ∧ e.bindings ≠ [])
    (alike : ∀ slot, lookup exceptions slot = lookup exceptions' slot) :
    Agrees p base cells exceptions' := by
  refine ⟨size, sound, fun slot inside => ?_, fun slot value held => ?_⟩
  · rw [covered.token_iff slot inside, ← alike, Option.isSome_iff_exists]
    exact exists_congr (fun value => (covered.found slot value).symm)
  · exact (covered.range slot value ((covered.found slot value).mp ((alike slot).trans held))).2

/-- Whatever can be read again mirrors registers in good order. -/
theorem Readable.exists_mirrored (readable : r.Readable p base)
    (bounded : ∀ slot < p.size, r.get base slot ≤ Coupon.maxValue) (zero : r.width ≠ .four → base = 0) :
    ∃ s, r.Mirrors p s ∧ s.Sound p base := by
  suffices packed : ∃ s, r.Mirrors p s ∧ s.Packed p base by
    obtain ⟨s, mirrors, packed⟩ := packed
    exact ⟨s, mirrors, packed, fun slot inside => mirrors.get base inside ▸ bounded slot inside⟩
  cases r with
  | four cells exceptions =>
    obtain ⟨size, covered, kept⟩ := readable
    cases exceptions with
    | none =>
      refine ⟨.four cells none, .four kept (fun _ => rfl), covered.agrees size (fun e member => ?_) (fun _ => rfl)⟩
      cases member
    | some e =>
      obtain ⟨serviceable, rfl, used⟩ := kept e rfl
      obtain ⟨f, _, sound, same, perm⟩ := Exceptions.reads_readCompact serviceable used
      have alike := Exceptions.get?_eq_of_perm serviceable sound.serviceable perm.symm
      refine ⟨.four cells (some f), .four kept alike, covered.agrees size (fun g member => ?_) alike⟩
      obtain rfl := Option.some.inj member
      exact ⟨sound, same, fun none => used (List.nil_perm.mp (none ▸ perm))⟩
  | six cells =>
    obtain rfl := zero (fun four => by cases four)
    let values := (List.range p.size).map cells.get
    have sized : values.length = p.size := by simp [values]
    have range : ∀ value ∈ values, 0 ≤ value ∧ value ≤ Coupon.maxValue := by
      intro value member
      obtain ⟨slot, inside, rfl⟩ := List.mem_map.mp member
      exact ⟨Nat.zero_le _, bounded slot (List.mem_range.mp inside)⟩
    obtain ⟨sound, width, read⟩ := ofValues_spec .six sized (Nat.zero_le _) (fun _ => rfl) range
    generalize ofValues .six p 0 values = s at sound width read
    cases s with
    | four | eight => cases width
    | six others =>
      refine ⟨.six others, .six (readable.trans sound.packed.1.symm) (fun slot inside => ?_), sound.packed⟩
      have here : others.get slot = (values[slot]?).getD 0 := read slot inside
      rw [here]
      simp [values, inside]
  | eight cells => exact ⟨.eight cells, .eight, readable, zero (fun four => by cases four)⟩

end Registers

namespace RegisterArray

section

variable {α : Type} {a b : RegisterArray α} {slot : Nat}

/-- Arrays that differ at most in how their registers are kept. -/
structure Mirrors (a b : RegisterArray α) : Prop where
  precision : a.precision = b.precision
  registers : a.registers.Mirrors b.precision b.registers
  tally : a.tally = b.tally
  historic : a.historic = b.historic
  upkeep : a.upkeep = b.upkeep

theorem Mirrors.width (mirrors : a.Mirrors b) : a.width = b.width := mirrors.registers.width

theorem Mirrors.get (mirrors : a.Mirrors b) (inside : slot < b.precision.size) : a.get slot = b.get slot := by
  rw [RegisterArray.get, RegisterArray.get, mirrors.tally]
  exact mirrors.registers.get _ inside

theorem Mirrors.values (mirrors : a.Mirrors b) : a.values = b.values :=
  values_congr mirrors.precision (fun _ inside => mirrors.get inside)

theorem Mirrors.isPending (mirrors : a.Mirrors b) : a.isPending = b.isPending := by
  rw [RegisterArray.isPending, RegisterArray.isPending, mirrors.upkeep]

end

variable {α : Type} [Scalar α] {a b : RegisterArray α} {slot new : Nat}

theorem Mirrors.scan (mirrors : a.Mirrors b) : a.scan = b.scan := scan_congr mirrors.width mirrors.values

theorem Mirrors.currentTally (mirrors : a.Mirrors b) : a.currentTally = b.currentTally := by
  rw [RegisterArray.currentTally, RegisterArray.currentTally, mirrors.upkeep, mirrors.tally, mirrors.scan]

/-- Registers that are moved to a new base are built anew, and then they are the same. -/
private theorem Mirrors.rebased (mirrors : a.Mirrors b) (sound : b.settle.Sound)
    (pending : b.upkeep ≠ .settled) : a.rebased.Mirrors b.precision b.rebased := by
  have shape : b.settle.registers = b.rebased := by
    unfold settle
    split
    · contradiction
    · rfl
  have built : b.rebased.Mirrors b.precision b.rebased := by
    rw [← shape, ← precision_settle b]
    exact sound.registers.mirrors
  obtain ⟨p, registers, tally, historic, upkeep⟩ := a
  obtain ⟨q, registers', tally', historic', upkeep'⟩ := b
  obtain ⟨precision, alike, same, _, _⟩ := id mirrors
  cases precision
  cases same
  have values := mirrors.values
  cases alike with
  | four kept looked =>
    simp only [RegisterArray.rebased, values] at built ⊢
    split_ifs at built ⊢ with unmoved
    · exact .four kept looked
    · exact built
  | six size read => exact .six size read
  | eight => exact .eight

theorem Mirrors.settle (mirrors : a.Mirrors b) (sound : b.Sound) : a.settle.Mirrors b.settle := by
  obtain ⟨sound', _⟩ := settle_spec sound
  by_cases settled : b.upkeep = .settled
  · have left : a.settle = a := by simp [RegisterArray.settle, mirrors.upkeep, settled]
    have right : b.settle = b := by simp [RegisterArray.settle, settled]
    rwa [left, right]
  · have rebased := mirrors.rebased sound' settled
    have shape (c : RegisterArray α) (pending : c.upkeep ≠ .settled) : c.settle =
        { c with registers := c.rebased, tally := c.currentTally, upkeep := .settled } := by
      unfold RegisterArray.settle
      split
      · contradiction
      · rfl
    rw [shape a (mirrors.upkeep ▸ settled), shape b settled]
    exact ⟨mirrors.precision, rebased, mirrors.currentTally, mirrors.historic, rfl⟩

theorem Mirrors.raise (mirrors : a.Mirrors b) (encoded : b.Encoded) (inside : slot < b.precision.size)
    (larger : b.get slot < new) (bound : new ≤ Coupon.maxValue) :
    (a.raise slot (b.get slot) new).Mirrors (b.raise slot (b.get slot) new) := by
  have put := mirrors.registers.put encoded.registers inside (Nat.le_of_lt larger) bound
  have registers : (a.registers.put a.precision a.tally.base slot new).Mirrors b.precision
      (b.registers.put b.precision b.tally.base slot new) := by
    rw [mirrors.precision, mirrors.tally]
    exact put
  refine ⟨mirrors.precision, registers, ?_, mirrors.historic, ?_⟩
  · simp only [RegisterArray.raise, mirrors.tally]
  · simp only [RegisterArray.raise, registers.width]
    rw [mirrors.tally]

theorem Mirrors.credited (mirrors : a.Mirrors b) (inOrder : Bool) :
    (a.credited inOrder).Mirrors (b.credited inOrder) := by
  refine ⟨mirrors.precision, mirrors.registers, mirrors.tally, ?_, mirrors.upkeep⟩
  simp only [RegisterArray.credited, credit, mirrors.precision, mirrors.tally, mirrors.historic]

theorem Mirrors.update (mirrors : a.Mirrors b) (sound : b.Sound) (c : Coupon) (inOrder : Bool) :
    (a.update c inOrder).Mirrors (b.update c inOrder) := by
  have settled := mirrors.settle sound
  obtain ⟨sound', _⟩ := settle_spec sound
  have inside : c.register b.settle.precision.size < b.settle.precision.size :=
    Nat.mod_lt _ b.settle.precision.size_pos
  have read := settled.get inside
  rw [update_eq a, update_eq b, settled.precision, settled.tally, read]
  split_ifs with low held
  · exact settled
  · exact settled
  · exact (settled.credited inOrder).raise ⟨sound'.registers, sound'.atBase_le⟩ inside
      (Nat.lt_of_not_le held) c.value_le_maxValue

end RegisterArray

end DistinctCount
