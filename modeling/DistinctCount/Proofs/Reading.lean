import DistinctCount.Image.Preamble
import DistinctCount.Image.Writer
import DistinctCount.Proofs.Packing

namespace DistinctCount

namespace Reader

variable {β γ σ : Type} {reader : Reader β} {next : β → Reader γ} {bytes more : List UInt8} {x : β}
  {y : γ} {condition : Bool} {fault : ImageFault} {part : ImagePart} {count n : Nat}

/-- The reader takes exactly these bytes for its result. -/
def Reads (reader : Reader β) (bytes : List UInt8) (result : β) : Prop :=
  ∀ rest, reader.run (bytes ++ rest) = .ok (result, rest)

theorem reads_pure (x : β) : Reads (pure x) [] x := fun _ => rfl

theorem Reads.bind (first : Reads reader bytes x) (second : Reads (next x) more y) :
    Reads (reader >>= next) (bytes ++ more) y := by
  intro rest
  rw [List.append_assoc, StateT.run_bind, first]
  exact second rest

theorem reads_refuseIf (passed : condition = false) : Reads (refuseIf condition fault) [] () := by
  intro rest
  rw [passed]
  rfl

theorem Reads.unless {next : Unit → Reader γ} (passed : condition = false)
    (second : Reads (next ()) bytes y) : Reads (refuseIf condition fault >>= next) bytes y :=
  (reads_refuseIf passed).bind second

theorem Reads.last {next : β → Reader γ} (first : Reads reader bytes x)
    (second : Reads (next x) [] y) : Reads (reader >>= next) bytes y := by
  have all := first.bind second
  rwa [List.append_nil] at all

theorem reads_bytes (sized : bytes.length = count) : Reads (Reader.bytes count part) bytes bytes := by
  intro rest
  subst sized
  have enough : ¬ (bytes ++ rest).length < bytes.length := by simp
  have split : (bytes ++ rest).splitAt bytes.length = (bytes, rest) := by simp
  simp only [Reader.bytes, ensure, bind_assoc, StateT.run_bind, StateT.run_get, pure_bind,
    if_neg enough, StateT.run_pure, split, StateT.run_set]
  rfl

theorem reads_number (bound : n < 256 ^ count) : Reads (number count part) (leBytes count n) n := by
  have read : Reads (number count part) (leBytes count n) (ofLeBytes (leBytes count n)) := by
    refine (reads_bytes (length_leBytes count n)).last ?_
    exact reads_pure _
  rwa [ofLeBytes_leBytes, Nat.mod_eq_of_lt bound] at read

theorem reads_float (x : Float) : Reads (float part) (floatBytes x) x := by
  have read : Reads (float part) (floatBytes x) (Float.ofBits (UInt64.ofNat x.toBits.toNat)) := by
    refine (reads_number x.toBits.toNat_lt).last ?_
    exact reads_pure _
  rwa [UInt64.ofNat_toNat, Float.ofBits_toBits] at read

private theorem couponBytes_cons (c : Coupon) (coupons : List Coupon) :
    couponBytes (c :: coupons) = leBytes 4 c.word.toNat ++ couponBytes coupons := rfl

theorem length_couponBytes (coupons : List Coupon) :
    (couponBytes coupons).length = 4 * coupons.length := by
  induction coupons with
  | nil => rfl
  | cons c rest ih =>
    rw [couponBytes_cons, List.length_append, length_leBytes, ih, List.length_cons]
    omega

private theorem couponAt_couponBytes {coupons : List Coupon} {i : Nat} (inside : i < coupons.length) :
    couponAt (couponBytes coupons).toArray (4 * i) = coupons[i] := by
  induction coupons generalizing i with
  | nil => cases inside
  | cons c rest ih =>
    rw [couponBytes_cons]
    cases i with
    | zero =>
      have small : c.word.toNat < 256 ^ 4 := c.word.toNat_lt
      have word : ofLeBytes (leBytes 4 c.word.toNat) = c.word.toNat := by
        rw [ofLeBytes_leBytes, Nat.mod_eq_of_lt small]
      have front : couponAt (leBytes 4 c.word.toNat ++ couponBytes rest).toArray (4 * 0) =
          ⟨UInt32.ofNat (ofLeBytes (leBytes 4 c.word.toNat))⟩ := rfl
      rw [front, word, UInt32.ofNat_toNat]
      rfl
    | succ i =>
      have behind : couponAt (leBytes 4 c.word.toNat ++ couponBytes rest).toArray (4 * (i + 1)) =
          couponAt (couponBytes rest).toArray (4 * i) := by
        simp [couponAt, leBytes, Nat.mul_add, Array.getD_eq_getD_getElem?]
      rw [behind, ih (Nat.lt_of_succ_lt_succ inside)]
      rfl

theorem reads_coupons {coupons : List Coupon} (counted : coupons.length = count) :
    Reads (Reader.coupons count part) (couponBytes coupons) coupons := by
  subst counted
  have read : Reads (Reader.coupons coupons.length part) (couponBytes coupons)
      ((List.range coupons.length).map fun i => couponAt (couponBytes coupons).toArray (4 * i)) := by
    refine (reads_bytes (length_couponBytes coupons)).last ?_
    exact reads_pure _
  have same : ((List.range coupons.length).map fun i =>
      couponAt (couponBytes coupons).toArray (4 * i)) = coupons := by
    apply List.ext_getElem (by simp)
    intro i _ inside
    simp [couponAt_couponBytes inside]
  rwa [same] at read

/-- Items that are read into a state one after the other, under an invariant of the state and of the
items that are left. -/
theorem reads_foldlM {step : σ → β × Nat → Reader σ} {add : σ → β → σ} (Inv : σ → List β → Prop)
    (one : ∀ state item index rest, Inv state (item :: rest) →
      Reads (step state (item, index)) [] (add state item) ∧ Inv (add state item) rest)
    {state : σ} {items : List β} (start : Inv state items) (index : Nat) :
    Reads ((items.zipIdx index).foldlM step state) [] (items.foldl add state) ∧
      Inv (items.foldl add state) [] := by
  induction items generalizing state index with
  | nil => exact ⟨reads_pure state, start⟩
  | cons item rest ih =>
    obtain ⟨first, kept⟩ := one state item index rest start
    obtain ⟨others, done⟩ := ih kept (index + 1)
    rw [List.zipIdx_cons, List.foldlM_cons]
    exact ⟨first.bind others, done⟩

end Reader

namespace Preamble

private theorem fields_bytes (p : Preamble) (lgSize : p.lgSize < 256) (count : p.count < 256) :
    p.bytes.map UInt8.toNat = [words p.mode, version, family, p.precision.lg, p.lgSize,
      p.flags.toByte, p.count, p.mode.code + 4 * p.width.code] := by
  have lg := p.precision.le_twentyOne
  have flags : p.flags.toByte < 64 := by
    obtain ⟨empty, compact, outOfOrder, pending⟩ := p.flags
    revert empty compact outOfOrder pending
    decide
  have codes : words p.mode < 256 ∧ p.mode.code + 4 * p.width.code < 256 := by
    cases p.mode <;> cases p.width <;> decide
  simp only [bytes, List.map_cons, List.map_nil, UInt8.toNat_ofNat', Nat.mod_eq_of_lt codes.1,
    Nat.mod_eq_of_lt codes.2, Nat.mod_eq_of_lt lgSize, Nat.mod_eq_of_lt count,
    Nat.mod_eq_of_lt (by omega : p.precision.lg < 2 ^ 8),
    Nat.mod_eq_of_lt (by omega : p.flags.toByte < 2 ^ 8)]
  rfl

/-- A preamble whose numbers fit into bytes is read as it was written. -/
theorem reads_bytes (p : Preamble) (lgSize : p.lgSize < 256) (count : p.count < 256) :
    Reader.Reads read p.bytes p := by
  have little : p.flags.toByte.testBit Flags.bigEndianBit = false := by
    obtain ⟨empty, compact, outOfOrder, pending⟩ := p.flags
    revert empty compact outOfOrder pending
    decide
  have mode : Mode.ofCode? ((p.mode.code + 4 * p.width.code) % 4) = some p.mode := by
    cases p.mode <;> cases p.width <;> rfl
  have width : Width.ofCode? ((p.mode.code + 4 * p.width.code) / 4) = some p.width := by
    cases p.mode <;> cases p.width <;> rfl
  have eight : p.bytes.length = 8 := rfl
  unfold read
  refine (Reader.reads_bytes eight).last ?_
  simp only [fields_bytes p lgSize count, List.getD_cons_zero, List.getD_cons_succ]
  refine .unless (by decide) (.unless (by decide) ?_)
  simp only [Precision.ofNat?_lg]
  refine .unless little ?_
  simp only [mode, width]
  refine .unless (by simp) ?_
  rw [Flags.ofByte_toByte]
  exact Reader.reads_pure p

end Preamble

end DistinctCount
