import DistinctCount.Proofs.Acceptance

/-! Readers whose steps may also stop, and what it takes for one of them to follow a reader that has no place
to stop at. -/

namespace DistinctCount

/-- A reader that gives a result, finds a fault, or stops. -/
abbrev Guarded (β : Type) := StateT (List UInt8) (ExceptT ImageFault Option) β

namespace Guarded

section

variable {β : Type}

/-- A reader without a place to stop at. -/
def plain (reader : Reader β) : Guarded β := fun bytes => ExceptT.mk (some (reader.run bytes))

/-- A step that goes on with a value and takes no bytes, or stops. -/
def attempt (step : Option β) : Guarded β := fun bytes => ExceptT.mk (step.map fun x => .ok (x, bytes))

end

/-- The guarded reader never stops. It gives what the other reader gives, which has the property, and finds
the same faults. -/
structure Follows {β : Type} (guarded : Guarded β) (reader : Reader β) (Post : β → Prop) : Prop where
  run : ∀ bytes, (guarded.run bytes).run = some (reader.run bytes)
  post : ∀ bytes x rest, Reader.Gives reader bytes x rest → Post x

variable {β γ σ : Type} {guarded : Guarded β} {reader : Reader β} {guardedNext : β → Guarded γ}
  {next : β → Reader γ} {Post : β → Prop} {Last : γ → Prop} {x : β} {condition : Bool} {fault : ImageFault}

theorem follows_plain (reader : Reader β) :
    Follows (plain reader) reader fun x => ∃ bytes rest, Reader.Gives reader bytes x rest :=
  ⟨fun _ => rfl, fun bytes _ rest given => ⟨bytes, rest, given⟩⟩

theorem follows_pure (holds : Post x) : Follows (pure x) (pure x) Post := by
  refine ⟨fun _ => rfl, fun bytes y rest given => ?_⟩
  obtain ⟨rfl, _⟩ := given.pure
  exact holds

theorem follows_throw (fault : ImageFault) (Post : β → Prop) : Follows (throw fault) (throw fault) Post :=
  ⟨fun _ => rfl, fun _ _ _ given => absurd given Reader.not_gives_throw⟩

theorem follows_attempt {step : Option β} (passed : step = some x) (holds : Post x) :
    Follows (attempt step) (pure x) Post := by
  subst passed
  exact follows_pure holds

theorem Follows.weaken {Weak : β → Prop} (follows : Follows guarded reader Post) (weak : ∀ x, Post x → Weak x) :
    Follows guarded reader Weak :=
  ⟨follows.run, fun bytes x rest given => weak x (follows.post bytes x rest given)⟩

/-- The second step may rely on what the first one gives. -/
theorem Follows.bind (first : Follows guarded reader Post)
    (second : ∀ x, Post x → Follows (guardedNext x) (next x) Last) :
    Follows (guarded >>= guardedNext) (reader >>= next) Last := by
  refine ⟨fun bytes => ?_, fun bytes z rest given => ?_⟩
  · rw [StateT.run_bind, StateT.run_bind, ExceptT.run_bind, first.run]
    cases ran : reader.run bytes with
    | error fault => rfl
    | ok result => exact (second result.1 (first.post bytes result.1 result.2 ran)).run result.2
  · obtain ⟨x, mid, left, right⟩ := given.bind
    exact (second x (first.post bytes x mid left)).post mid z rest right

/-- A step that goes through is no step of the reader. -/
theorem Follows.attempt {step : Option β} {reader : Reader γ} (passed : step = some x)
    (others : Follows (guardedNext x) reader Last) : Follows (attempt step >>= guardedNext) reader Last := by
  subst passed
  exact others

/-- What follows a check may rely on its outcome. -/
theorem Follows.unless {guardedNext : Unit → Guarded γ} {next : Unit → Reader γ}
    (others : condition = false → Follows (guardedNext ()) (next ()) Last) :
    Follows (plain (Reader.refuseIf condition fault) >>= guardedNext)
      (Reader.refuseIf condition fault >>= next) Last := by
  cases condition with
  | true => exact follows_throw fault Last
  | false => exact others rfl

/-- A fold whose every step follows the one of a reader, as long as an invariant holds of the state and of the
items that are left. -/
theorem Follows.foldlM {guardedStep : σ → β × Nat → Guarded σ} {step : σ → β × Nat → Reader σ}
    (Inv : σ → List β → Prop)
    (one : ∀ state item index left, Inv state (item :: left) →
      Follows (guardedStep state (item, index)) (step state (item, index)) (Inv · left))
    {state : σ} {items : List β} {index : Nat} (start : Inv state items) :
    Follows ((items.zipIdx index).foldlM guardedStep state) ((items.zipIdx index).foldlM step state)
      (Inv · []) := by
  induction items generalizing state index with
  | nil => exact follows_pure start
  | cons item left ih =>
    rw [List.zipIdx_cons, List.foldlM_cons, List.foldlM_cons]
    exact (one state item index left start).bind (fun _ kept => ih kept)

end Guarded

end DistinctCount
