import RustiCache.ActionRuns

/-!
# Readers that wait for their input

A reader goes on while what has arrived suffices and waits for more otherwise.
If more input never changes what a reader does with the input it has, then it
does not matter when the input arrives: wherever the reader comes to rest, it
stands where it would have come to rest with all of the input at once.
-/

namespace RustiCache

structure IncrementalReader (σ α : Type) where
  advance : σ → Option σ
  feed : σ → List α → σ
  rank : σ → Nat
  feed_nil : ∀ state, feed state [] = state
  feed_append : ∀ state first second,
    feed state (first ++ second) = feed (feed state first) second
  advance_feed : ∀ {state next}, advance state = some next → ∀ more,
    advance (feed state more) = some (feed next more)
  rank_advance : ∀ {state next}, advance state = some next →
    rank next < rank state

namespace IncrementalReader

variable {σ α : Type} (reader : IncrementalReader σ α)

/-- Go on for so many steps, or until more input is needed. -/
def settleWithin : Nat → σ → σ
  | 0, state => state
  | steps + 1, state =>
      match reader.advance state with
      | some next => settleWithin steps next
      | none => state

/-- Go on until more input is needed. -/
def settle (state : σ) : σ :=
  reader.settleWithin (reader.rank state) state

theorem settleWithin_of_le {steps : Nat} {state : σ}
    (enough : reader.rank state ≤ steps) :
    reader.settleWithin steps state = reader.settle state := by
  induction rank : reader.rank state using Nat.strongRecOn
    generalizing steps state with
  | _ count ih =>
      cases taken : reader.advance state with
      | none =>
          have rests : ∀ steps, reader.settleWithin steps state = state := by
            intro steps
            cases steps with
            | zero => rfl
            | succ steps => rw [settleWithin, taken]
          rw [settle, rests, rests]
      | some next =>
          have lower := reader.rank_advance taken
          obtain ⟨more, rfl⟩ : ∃ more, steps = more + 1 :=
            Nat.exists_eq_succ_of_ne_zero (by omega)
          obtain ⟨less, count_eq⟩ : ∃ less, reader.rank state = less + 1 :=
            Nat.exists_eq_succ_of_ne_zero (by omega)
          rw [settle, count_eq, settleWithin, settleWithin, taken]
          rw [rank] at lower
          exact (ih _ lower (by omega) rfl).trans
            (ih _ lower (by omega) rfl).symm

theorem settle_of_rest {state : σ} (rests : reader.advance state = none) :
    reader.settle state = state := by
  rw [settle]
  cases reader.rank state with
  | zero => rfl
  | succ steps => rw [settleWithin, rests]

theorem settle_of_advance {state next : σ}
    (taken : reader.advance state = some next) :
    reader.settle state = reader.settle next := by
  have lower := reader.rank_advance taken
  obtain ⟨less, rank⟩ : ∃ less, reader.rank state = less + 1 :=
    Nat.exists_eq_succ_of_ne_zero (by omega)
  rw [settle, rank, settleWithin, taken]
  exact reader.settleWithin_of_le (by omega)

/-- A run of the reader and of arriving input comes to the same as all of the
input at once. -/
theorem settle_feed_of_reaches {τ : Type*} {step : σ → τ → Option σ}
    {allowed : σ → τ → Prop} (input : τ → List α)
    (moves : ∀ {state action next}, allowed state action →
      step state action = some next →
      reader.advance state = some next ∧ input action = [] ∨
        next = reader.feed state (input action))
    {start final : σ} {actions : List τ}
    (reaches : Reaches step allowed start actions final) (more : List α) :
    reader.settle (reader.feed final more) =
      reader.settle (reader.feed start (actions.flatMap input ++ more)) := by
  induction reaches generalizing more with
  | refl => rfl
  | @snoc state next actions action _ meets taken ih =>
      rw [List.flatMap_append, List.flatMap_singleton, List.append_assoc]
      rcases moves meets taken with ⟨advanced, nothing⟩ | rfl
      · rw [nothing, List.nil_append, ← ih,
          reader.settle_of_advance (reader.advance_feed advanced more)]
      · rw [← ih, reader.feed_append]

/-- Where a reader rests depends on the input alone. -/
theorem eq_settle_of_reaches {τ : Type*} {step : σ → τ → Option σ}
    {allowed : σ → τ → Prop} (input : τ → List α)
    (moves : ∀ {state action next}, allowed state action →
      step state action = some next →
      reader.advance state = some next ∧ input action = [] ∨
        next = reader.feed state (input action))
    {start final : σ} {actions : List τ}
    (reaches : Reaches step allowed start actions final)
    (rests : reader.advance final = none) :
    final = reader.settle (reader.feed start (actions.flatMap input)) := by
  have same := reader.settle_feed_of_reaches input moves reaches []
  rwa [reader.feed_nil, List.append_nil, reader.settle_of_rest rests] at same

end IncrementalReader

end RustiCache
