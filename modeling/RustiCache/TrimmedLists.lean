import Mathlib.Data.List.Induction
import Mathlib.Data.List.TakeWhile

/-!
# Trimming a list

Items are dropped from the end of a list, or from both ends, as long as they
have a property.  What has been put around a list that begins and ends without
it comes off again.
-/

namespace RustiCache

variable {α : Type*}

/-- Drop items from the end. -/
def trimEnd (drop : α → Bool) (items : List α) : List α :=
  (items.reverse.dropWhile drop).reverse

/-- Drop items from both ends. -/
def trimMatches (drop : α → Bool) (items : List α) : List α :=
  trimEnd drop (items.dropWhile drop)

/-- Nothing is to be dropped. -/
structure Tight (drop : α → Bool) (items : List α) : Prop where
  first : ∀ item ∈ items.head?, drop item = false
  last : ∀ item ∈ items.getLast?, drop item = false

variable {drop : α → Bool}

/-- A mark at both ends that is kept protects what is between. -/
theorem Tight.enclosed {mark : α} (kept : drop mark = false) (items : List α) :
    Tight drop ([mark] ++ items ++ [mark]) where
  first := by simp [kept]
  last := by
    intro item isLast
    rw [List.getLast?_concat, Option.mem_some] at isLast
    rw [← isLast]
    exact kept

/-- What is before an item that is kept is kept. -/
theorem trimEnd_append {item : α} (kept : drop item = false)
    (front back : List α) :
    trimEnd drop (front ++ item :: back) =
      front ++ item :: trimEnd drop back := by
  rw [trimEnd, trimEnd, List.reverse_append, List.reverse_cons,
    List.append_assoc, List.dropWhile_append]
  split
  next empty =>
    rw [List.isEmpty_iff] at empty
    simp [empty, kept]
  next => simp

theorem trimEnd_of_last {items : List α}
    (last : ∀ item ∈ items.getLast?, drop item = false) :
    trimEnd drop items = items := by
  cases items using List.reverseRecOn with
  | nil => rfl
  | append_singleton front final =>
      exact trimEnd_append (last final (by simp)) front []

theorem trimEnd_append_right {items right : List α}
    (dropped : ∀ item ∈ right, drop item = true) :
    trimEnd drop (items ++ right) = trimEnd drop items := by
  rw [trimEnd, List.reverse_append, List.dropWhile_append_of_pos]
  · rfl
  · intro item member
    exact dropped item (List.mem_reverse.mp member)

theorem trimMatches_append_right {items right : List α}
    (dropped : ∀ item ∈ right, drop item = true) :
    trimMatches drop (items ++ right) = trimMatches drop items := by
  rw [trimMatches, trimMatches, List.dropWhile_append]
  split
  next empty =>
    rw [List.isEmpty_iff] at empty
    rw [empty, List.dropWhile_eq_nil_iff.mpr dropped]
  next => exact trimEnd_append_right dropped

/-- Trimming takes off what has been put around a list. -/
theorem trimMatches_padded {left items right : List α}
    (before : ∀ item ∈ left, drop item = true)
    (tight : Tight drop items)
    (after : ∀ item ∈ right, drop item = true) :
    trimMatches drop (left ++ items ++ right) = items := by
  rw [trimMatches_append_right after, trimMatches,
    List.dropWhile_append_of_pos before]
  cases items with
  | nil => rfl
  | cons first others =>
      have kept := tight.first first (by simp)
      rw [List.dropWhile_cons_of_neg (by simp [kept])]
      exact trimEnd_of_last tight.last

theorem trimMatches_tight {items : List α} (tight : Tight drop items) :
    trimMatches drop items = items := by
  have padded : trimMatches drop ([] ++ items ++ []) = items :=
    trimMatches_padded (by simp) tight (by simp)
  simpa using padded

theorem trimMatches_trimEnd (items : List α) :
    trimMatches drop (trimEnd drop items) = trimMatches drop items := by
  have whole : items =
      trimEnd drop items ++ (items.reverse.takeWhile drop).reverse := by
    rw [trimEnd, ← List.reverse_append, List.takeWhile_append_dropWhile,
      List.reverse_reverse]
  conv => rhs; rw [whole]
  refine (trimMatches_append_right ?_).symm
  intro item member
  exact List.mem_takeWhile_imp (List.mem_reverse.mp member)

end RustiCache
