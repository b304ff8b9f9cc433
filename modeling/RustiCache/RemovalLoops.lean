import Mathlib.Data.Set.Basic
import Mathlib.Data.List.Pairwise

/-!
# Loops that take out one item per round

A loop is given by its round: the item that a round takes out and the state it
leaves, or nothing where the loop ends.  A measure that every round lowers makes
the loop end.  If a round takes exactly its item out of what a state stores,
then the items of a run are what the run lost, and if every round takes an item
of least rank, then the items come out in the order of their ranks and before
everything that stays.
-/

namespace RustiCache

namespace RemovalLoop

variable {σ α : Type*} (round : σ → Option (α × σ))

/-- Rounds taken one after another, with the items they take out. -/
inductive Rounds : σ → List α → σ → Prop where
  | refl (state : σ) : Rounds state [] state
  | step {state next last : σ} {item : α} {items : List α}
      (taken : round state = some (item, next))
      (rest : Rounds next items last) : Rounds state (item :: items) last

/-- A run of the loop to its end. -/
structure Run (state : σ) (items : List α) (last : σ) : Prop where
  rounds : Rounds round state items last
  ends : round last = none

/-- A round takes its item, and nothing else, out of what a state stores. -/
def TakesOne (stored : σ → Set α) : Prop :=
  ∀ {state item next}, round state = some (item, next) →
    item ∈ stored state ∧
      ∀ other, other ∈ stored next ↔ other ∈ stored state ∧ other ≠ item

/-- In the given states a round takes an item of least rank, and the next
state is again such a state. -/
def TakesLeast (stored : σ → Set α) (rank : α → Nat) (good : σ → Prop) : Prop :=
  ∀ {state item next}, good state → round state = some (item, next) →
    good next ∧ ∀ other ∈ stored state, rank item ≤ rank other

variable {round}

/-- A loop whose rounds lower a measure ends. -/
theorem exists_run (measure : σ → Nat)
    (lowers : ∀ {state item next}, round state = some (item, next) →
      measure next < measure state) (state : σ) :
    ∃ items last, Run round state items last := by
  induction size : measure state using Nat.strong_induction_on
      generalizing state with
  | _ bound ih =>
      cases taken : round state with
      | none => exact ⟨[], state, Rounds.refl state, taken⟩
      | some outcome =>
          have lower : measure outcome.2 < bound := by
            rw [← size]
            exact lowers taken
          obtain ⟨items, last, rounds, ends⟩ := ih _ lower outcome.2 rfl
          exact ⟨outcome.1 :: items, last, Rounds.step taken rounds, ends⟩

namespace Rounds

/-- Before each item was taken out, there was a state with a further round. -/
theorem exists_before {state last : σ} {items : List α}
    (rounds : Rounds round state items last) {count : Nat}
    (bound : count < items.length) :
    ∃ middle, Rounds round state (items.take count) middle ∧
      round middle ≠ none := by
  induction rounds generalizing count with
  | refl => exact absurd bound (Nat.not_lt_zero count)
  | @step state next last item items taken rest ih =>
      cases count with
      | zero => exact ⟨state, Rounds.refl state, by rw [taken]; rintro ⟨⟩⟩
      | succ count =>
          obtain ⟨middle, first, further⟩ := ih (Nat.lt_of_succ_lt_succ bound)
          exact ⟨middle, Rounds.step taken first, further⟩

section Stored

variable {stored : σ → Set α} (takesOne : TakesOne round stored)

include takesOne

/-- What is stored at the end was stored at the start and not taken out. -/
theorem mem_stored_iff {state last : σ} {items : List α}
    (rounds : Rounds round state items last) (other : α) :
    other ∈ stored last ↔ other ∈ stored state ∧ other ∉ items := by
  induction rounds with
  | refl => simp
  | step taken _ ih =>
      rw [ih, (takesOne taken).2, List.mem_cons, not_or, and_assoc]

/-- Only stored items are taken out. -/
theorem mem_stored {state last : σ} {items : List α}
    (rounds : Rounds round state items last) {item : α}
    (member : item ∈ items) : item ∈ stored state := by
  induction rounds with
  | refl => cases member
  | step taken _ ih =>
      rcases List.mem_cons.mp member with rfl | later
      · exact (takesOne taken).1
      · exact (((takesOne taken).2 item).mp (ih later)).1

/-- The items of a run are exactly what the run lost. -/
theorem mem_iff {state last : σ} {items : List α}
    (rounds : Rounds round state items last) (item : α) :
    item ∈ items ↔ item ∈ stored state ∧ item ∉ stored last := by
  rw [rounds.mem_stored_iff takesOne]
  constructor
  · intro member
    exact ⟨rounds.mem_stored takesOne member, fun kept => kept.2 member⟩
  · rintro ⟨held, lost⟩
    by_contra absent
    exact lost ⟨held, absent⟩

theorem nodup {state last : σ} {items : List α}
    (rounds : Rounds round state items last) : items.Nodup := by
  induction rounds with
  | refl => exact List.nodup_nil
  | step taken rest ih =>
      apply List.nodup_cons.mpr
      refine ⟨?_, ih⟩
      intro again
      exact (((takesOne taken).2 _).mp (rest.mem_stored takesOne again)).2 rfl

variable {rank : α → Nat} {good : σ → Prop}
  (takesLeast : TakesLeast round stored rank good)

include takesLeast

/-- The items come out in the order of their ranks. -/
theorem pairwise_rank {state last : σ} {items : List α}
    (rounds : Rounds round state items last) (initially : good state) :
    items.Pairwise fun first second => rank first ≤ rank second := by
  induction rounds with
  | refl => exact List.Pairwise.nil
  | step taken rest ih =>
      obtain ⟨stillGood, least⟩ := takesLeast initially taken
      apply List.Pairwise.cons ?_ (ih stillGood)
      intro later member
      have held := rest.mem_stored takesOne member
      exact least later (((takesOne taken).2 later).mp held).1

/-- Nothing that stays ranks below an item that was taken out. -/
theorem rank_le_of_kept {state last : σ} {items : List α}
    (rounds : Rounds round state items last) (initially : good state)
    {item other : α} (member : item ∈ items) (kept : other ∈ stored last) :
    rank item ≤ rank other := by
  induction rounds with
  | refl => cases member
  | step taken rest ih =>
      obtain ⟨stillGood, least⟩ := takesLeast initially taken
      rcases List.mem_cons.mp member with rfl | later
      · have held := ((rest.mem_stored_iff takesOne other).mp kept).1
        exact least other (((takesOne taken).2 other).mp held).1
      · exact ih stillGood later kept

end Stored

end Rounds

end RemovalLoop

end RustiCache
