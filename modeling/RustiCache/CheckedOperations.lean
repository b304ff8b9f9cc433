import Mathlib.Algebra.GroupWithZero.Nat
import Mathlib.Tactic.Common

/-!
# Operations that may panic

Indexing, slicing, fixed-width addition and subtraction, and the reservation of
memory stop a program when their arguments are out of range.  Here each of them
answers with a panic in that case.  A computation built from them that never
panics equals its pure counterpart, which the lemmas of this file allow to read
off operation by operation.
-/

namespace RustiCache

/-- Why a computation is stopped. -/
inductive Panic where
  | outOfRange
  | overflow
  | capacity
deriving DecidableEq

/-- A computation that may be stopped. -/
abbrev Checked (α : Type) := Except Panic α

namespace Checked

variable {α : Type}

/-- Addition of unsigned numbers below the limit. -/
def add (limit first second : Nat) : Checked Nat :=
  if first + second < limit then .ok (first + second) else .error .overflow

/-- Subtraction of unsigned numbers. -/
def sub (first second : Nat) : Checked Nat :=
  if second ≤ first then .ok (first - second) else .error .overflow

/-- The item at a place. -/
def index (items : List α) (place : Nat) : Checked α :=
  match items[place]? with
  | some item => .ok item
  | none => .error .outOfRange

/-- The items before a place. -/
def sliceTo (items : List α) (stop : Nat) : Checked (List α) :=
  if stop ≤ items.length then .ok (items.take stop) else .error .outOfRange

/-- The items from a place on, as left by an advance over the others. -/
def sliceFrom (items : List α) (start : Nat) : Checked (List α) :=
  if start ≤ items.length then .ok (items.drop start) else .error .outOfRange

/-- The items from a place on and before another. -/
def slice (items : List α) (start stop : Nat) : Checked (List α) :=
  if start ≤ stop ∧ stop ≤ items.length then
    .ok ((items.take stop).drop start)
  else .error .outOfRange

/-- The items before a place, and those from it on. -/
def splitTo (items : List α) (place : Nat) : Checked (List α × List α) :=
  if place ≤ items.length then .ok (items.take place, items.drop place)
  else .error .outOfRange

/-- A reservation for a number of elements of the given size.  No reservation
takes more than `isize::MAX` bytes. -/
def withCapacity (size count : Nat) : Checked Unit :=
  if count * size < 2 ^ 63 then .ok () else .error .capacity

theorem add_eq {limit first second : Nat} (fits : first + second < limit) :
    add limit first second = .ok (first + second) :=
  if_pos fits

theorem sub_eq {first second : Nat} (order : second ≤ first) :
    sub first second = .ok (first - second) :=
  if_pos order

theorem index_eq {items : List α} {place : Nat} {item : α}
    (found : items[place]? = some item) : index items place = .ok item := by
  rw [index, found]

theorem sliceTo_eq {items : List α} {stop : Nat}
    (bound : stop ≤ items.length) :
    sliceTo items stop = .ok (items.take stop) :=
  if_pos bound

theorem sliceFrom_eq {items : List α} {start : Nat}
    (bound : start ≤ items.length) :
    sliceFrom items start = .ok (items.drop start) :=
  if_pos bound

theorem slice_eq {items : List α} {start stop : Nat}
    (order : start ≤ stop) (bound : stop ≤ items.length) :
    slice items start stop = .ok ((items.take stop).drop start) :=
  if_pos ⟨order, bound⟩

theorem splitTo_eq {items : List α} {place : Nat}
    (bound : place ≤ items.length) :
    splitTo items place = .ok (items.take place, items.drop place) :=
  if_pos bound

@[simp]
theorem ok_bind {β : Type} (value : α) (next : α → Checked β) :
    ((.ok value : Checked α) >>= next) = next value :=
  rfl

@[simp]
theorem error_bind {β : Type} (reason : Panic) (next : α → Checked β) :
    ((.error reason : Checked α) >>= next) = .error reason :=
  rfl

@[simp]
theorem pure_eq (value : α) : (pure value : Checked α) = .ok value :=
  rfl

/-- A loop whose steps do not panic in the states it comes to. -/
theorem foldlM_eq {σ : Type} {checked : σ → α → Checked σ} {step : σ → α → σ}
    (holds : σ → Prop) {items : List α}
    (steps : ∀ state, ∀ item ∈ items, holds state →
      checked state item = .ok (step state item) ∧ holds (step state item))
    {state : σ} (initially : holds state) :
    items.foldlM checked state = .ok (items.foldl step state) := by
  induction items generalizing state with
  | nil => rfl
  | cons item items ih =>
      obtain ⟨taken, kept⟩ := steps state item List.mem_cons_self initially
      rw [List.foldlM_cons, taken, ok_bind, List.foldl_cons]
      exact ih (fun later other member =>
        steps later other (List.mem_cons_of_mem item member)) kept

/-- Reservations made one after another. -/
def reserveAll (size : Nat) : List Nat → Checked Unit
  | [] => .ok ()
  | count :: counts => do
      withCapacity size count
      reserveAll size counts

theorem reserveAll_append (size : Nat) (first second : List Nat) :
    reserveAll size (first ++ second) =
      (reserveAll size first >>= fun _ => reserveAll size second) := by
  induction first with
  | nil => rfl
  | cons count counts ih =>
      rw [List.cons_append, reserveAll, reserveAll, ih]
      cases withCapacity size count <;> rfl

/-- All reservations succeed, or the first that is too large panics. -/
theorem reserveAll_cases (size : Nat) (counts : List Nat) :
    (reserveAll size counts = .ok () ∧
      ∀ count ∈ counts, count * size < 2 ^ 63) ∨
    (reserveAll size counts = .error .capacity ∧
      ∃ count ∈ counts, 2 ^ 63 ≤ count * size) := by
  induction counts with
  | nil => exact Or.inl ⟨rfl, by simp⟩
  | cons count counts ih =>
      rw [reserveAll, withCapacity]
      by_cases fits : count * size < 2 ^ 63
      · rw [if_pos fits]
        rcases ih with ⟨reserved, all⟩ | ⟨panicked, other, member, large⟩
        · exact Or.inl ⟨reserved, List.forall_mem_cons.mpr ⟨fits, all⟩⟩
        · exact Or.inr ⟨panicked, other, List.mem_cons_of_mem count member,
            large⟩
      · rw [if_neg fits]
        exact Or.inr ⟨rfl, count, List.mem_cons_self, Nat.le_of_not_lt fits⟩

end Checked

end RustiCache
