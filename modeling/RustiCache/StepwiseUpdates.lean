import Mathlib.Data.List.Basic
import Mathlib.Tactic.Common

/-!
# Updates up to the first refusal

A sequence of items is applied to a state one after another, up to the first item
that is refused.  Every accepted item leaves a trace in the state.  So a refusal
leaves the state as it was only if it is the first item that is refused.
-/

namespace RustiCache

namespace Stepwise

variable {σ ι ε : Type}

/-- Apply items up to the first that is refused. -/
def applyAll (step : ι → σ → Except ε σ) :
    List ι → σ → Except ε Unit × σ
  | [], state => (.ok (), state)
  | item :: items, state =>
      match step item state with
      | .ok next => applyAll step items next
      | .error reason => (.error reason, state)

/-- Whether an item is accepted does not depend on the state, and an accepted
item makes the state larger. -/
structure Decides (step : ι → σ → Except ε σ) (accepts : ι → Bool)
    (Ready : σ → Prop) (size : σ → Nat) : Prop where
  accepted : ∀ {item state}, Ready state → accepts item = true →
    ∃ next, step item state = .ok next ∧ Ready next ∧ size state < size next
  refused : ∀ {item state}, Ready state → accepts item = false →
    ∃ reason, step item state = .error reason

/-- A reported error leaves the state as it was. -/
def Unharmed (Same : σ → σ → Prop) (state : σ) (outcome : Except ε Unit × σ) :
    Prop :=
  ∀ reason, outcome.1 = .error reason → Same state outcome.2

section Outcomes

variable {step : ι → σ → Except ε σ} {accepts : ι → Bool} {Ready : σ → Prop}
  {size : σ → Nat} {items : List ι} {state : σ}

theorem unharmed_of_step {Same : σ → σ → Prop} (refl : ∀ state, Same state state)
    (item : ι) (state : σ) :
    Unharmed Same state (applyAll step [item] state) := by
  intro reason failed
  rw [applyAll] at failed ⊢
  cases taken : step item state with
  | ok next =>
      rw [taken] at failed
      cases failed
  | error reason => exact refl state

theorem applyAll_of_error {item : ι} {reason : ε}
    (failed : step item state = .error reason) (items : List ι) :
    applyAll step (item :: items) state = (.error reason, state) := by
  rw [applyAll, failed]

theorem applyAll_of_ok {item : ι} {next : σ} (taken : step item state = .ok next)
    (items : List ι) :
    applyAll step (item :: items) state = applyAll step items next := by
  rw [applyAll, taken]

theorem applyAll_eq_ok (decides : Decides step accepts Ready size)
    (ready : Ready state) (all : ∀ item ∈ items, accepts item = true) :
    (applyAll step items state).1 = .ok () := by
  induction items generalizing state with
  | nil => rfl
  | cons item items ih =>
      obtain ⟨accepted, rest⟩ := List.forall_mem_cons.mp all
      obtain ⟨next, taken, readyNext, -⟩ := decides.accepted ready accepted
      rw [applyAll_of_ok taken]
      exact ih readyNext rest

theorem applyAll_eq_error (decides : Decides step accepts Ready size)
    (ready : Ready state) {item : ι} (member : item ∈ items)
    (refused : accepts item = false) :
    ∃ reason, (applyAll step items state).1 = .error reason := by
  induction items generalizing state with
  | nil => cases member
  | cons first items ih =>
      cases accepted : accepts first with
      | false =>
          obtain ⟨reason, failed⟩ := decides.refused ready accepted
          exact ⟨reason, by rw [applyAll_of_error failed]⟩
      | true =>
          obtain ⟨next, taken, readyNext, -⟩ := decides.accepted ready accepted
          rw [applyAll_of_ok taken]
          refine ih readyNext ((List.mem_cons.mp member).resolve_left ?_)
          rintro rfl
          rw [accepted] at refused
          cases refused

theorem size_le_applyAll (decides : Decides step accepts Ready size)
    (ready : Ready state) (items : List ι) :
    size state ≤ size (applyAll step items state).2 := by
  induction items generalizing state with
  | nil => exact Nat.le_refl _
  | cons item items ih =>
      cases accepted : accepts item with
      | false =>
          obtain ⟨reason, failed⟩ := decides.refused ready accepted
          exact Nat.le_of_eq (by rw [applyAll_of_error failed])
      | true =>
          obtain ⟨next, taken, readyNext, grows⟩ :=
            decides.accepted ready accepted
          rw [applyAll_of_ok taken]
          exact Nat.le_trans (Nat.le_of_lt grows) (ih readyNext)

/-- A state that refuses every item stays. -/
theorem applyAll_of_refusing
    (refuses : ∀ item, ∃ reason, step item state = .error reason)
    (items : List ι) : (applyAll step items state).2 = state := by
  cases items with
  | nil => rfl
  | cons item items =>
      obtain ⟨reason, failed⟩ := refuses item
      rw [applyAll_of_error failed]

/-- No harm is done exactly if no item is refused after an accepted one. -/
theorem unharmed_iff (decides : Decides step accepts Ready size)
    {Same : σ → σ → Prop} (refl : ∀ state, Same state state)
    (size_eq : ∀ {state next}, Same state next → size state = size next)
    (ready : Ready state) :
    Unharmed Same state (applyAll step items state) ↔
      ∀ first ∈ items.head?, accepts first = true →
        ∀ item ∈ items, accepts item = true := by
  cases items with
  | nil =>
      refine iff_of_true ?_ (by simp)
      rintro reason ⟨⟩
  | cons first items =>
      simp only [List.head?_cons, Option.mem_some_iff, forall_eq']
      cases accepted : accepts first with
      | false =>
          obtain ⟨reason, failed⟩ := decides.refused ready accepted
          refine iff_of_true ?_ (by simp)
          rw [applyAll_of_error failed]
          exact fun _ _ => refl state
      | true =>
          obtain ⟨next, taken, readyNext, grows⟩ :=
            decides.accepted ready accepted
          rw [applyAll_of_ok taken]
          constructor
          · intro unharmed _ item member
            by_contra refused
            rw [Bool.not_eq_true] at refused
            have later : item ∈ items := by
              refine (List.mem_cons.mp member).resolve_left ?_
              rintro rfl
              rw [accepted] at refused
              cases refused
            obtain ⟨reason, failed⟩ :=
              applyAll_eq_error decides readyNext later refused
            have same := size_eq (unharmed reason failed)
            have larger := size_le_applyAll decides readyNext items
            omega
          · intro all reason failed
            rw [applyAll_eq_ok decides readyNext
              (List.forall_mem_cons.mp (all rfl)).2] at failed
            cases failed

end Outcomes

end Stepwise

end RustiCache
