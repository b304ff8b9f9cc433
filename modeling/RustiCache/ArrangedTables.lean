import Mathlib.Data.List.AList
import Mathlib.Algebra.BigOperators.Group.List.Basic
import Mathlib.Algebra.GroupWithZero.Nat
import Mathlib.Tactic.Common

/-!
# Finite tables with an arbitrary iteration order

A hash table is an association list without repeated keys whose list order is
the iteration order.  Removing a key keeps the order of the others.  Inserting
one may move everything, so an insertion takes the new order as an argument: an
arrangement is any function that permutes lists.  The second half of the file
adds up a weight over the rows of a table and follows the sum through the table
operations.
-/

namespace RustiCache

/-- A table with keys in `κ` and values in `ν`. -/
abbrev Table (κ ν : Type) := AList fun _ : κ => ν

/-- A choice of iteration order after an insertion. -/
structure Arrangement where
  place : ∀ {α : Type}, List α → List α
  place_perm : ∀ {α : Type} (items : List α), (place items).Perm items

/-- The arrangement that leaves a new row in front. -/
def Arrangement.front : Arrangement where
  place := id
  place_perm := List.Perm.refl

namespace Table

variable {κ ν : Type} [DecidableEq κ]

/-- Insert or overwrite a row, then rearrange. -/
def insert (arrangement : Arrangement) (key : κ) (value : ν)
    (table : Table κ ν) : Table κ ν where
  entries := arrangement.place (AList.insert key value table).entries
  nodupKeys :=
    (List.perm_nodupKeys (arrangement.place_perm _)).mpr
      (AList.insert key value table).nodupKeys

theorem insert_perm (arrangement : Arrangement) (key : κ) (value : ν)
    (table : Table κ ν) :
    (insert arrangement key value table).entries.Perm
      (AList.insert key value table).entries :=
  arrangement.place_perm _

theorem lookup_insert (arrangement : Arrangement) (key other : κ) (value : ν)
    (table : Table κ ν) :
    AList.lookup other (insert arrangement key value table) =
      if other = key then some value else AList.lookup other table := by
  rw [AList.perm_lookup (insert_perm arrangement key value table)]
  split
  next same =>
    subst same
    exact AList.lookup_insert table
  next differ => exact AList.lookup_insert_ne differ

theorem lookup_erase (key other : κ) (table : Table κ ν) :
    AList.lookup other (AList.erase key table) =
      if other = key then none else AList.lookup other table := by
  split
  next same =>
    subst same
    exact AList.lookup_erase other table
  next differ => exact AList.lookup_erase_ne differ

/-- The row of a key can be moved to the front. -/
theorem perm_cons_erase {key : κ} {value : ν} {table : Table κ ν}
    (found : AList.lookup key table = some value) :
    table.entries.Perm (⟨key, value⟩ :: (AList.erase key table).entries) := by
  have member : key ∈ table.entries.keys := by
    have present : key ∈ table :=
      AList.lookup_isSome.mp (by rw [found]; rfl)
    exact AList.mem_keys.mp present
  obtain ⟨stored, before, after, _, layout, erased⟩ :=
    List.exists_of_kerase member
  have sameValue : stored = value := by
    have stores : stored ∈ AList.lookup key table :=
      AList.mem_lookup_iff.mpr (by rw [layout]; simp)
    rw [found] at stores
    exact (Option.some.inj stores).symm
  subst sameValue
  change table.entries.Perm (⟨key, stored⟩ :: table.entries.kerase key)
  rw [erased, layout]
  exact List.perm_middle

theorem erase_of_lookup_none {key : κ} {table : Table κ ν}
    (missing : AList.lookup key table = none) :
    AList.erase key table = table := by
  apply AList.ext
  exact List.kerase_of_notMem_keys (AList.lookup_eq_none.mp missing)

theorem replace_perm {key : κ} {old : ν} (value : ν) {table : Table κ ν}
    (found : AList.lookup key table = some old) :
    (AList.replace key value table).entries.Perm
      (⟨key, value⟩ :: (AList.erase key table).entries) := by
  have moved : (AList.replace key value table).entries.Perm
      (List.kreplace key value
        (⟨key, old⟩ :: (AList.erase key table).entries)) :=
    (perm_cons_erase found).kreplace table.nodupKeys
  have first : List.kreplace key value
      (⟨key, old⟩ :: (AList.erase key table).entries) =
      ⟨key, value⟩ :: (AList.erase key table).entries :=
    List.lookmap_cons_some _ _ (if_pos rfl)
  rwa [first] at moved

theorem lookup_replace {key : κ} {old : ν} (other : κ) (value : ν)
    {table : Table κ ν} (found : AList.lookup key table = some old) :
    AList.lookup other (AList.replace key value table) =
      if other = key then some value else AList.lookup other table := by
  have same : (AList.replace key value table).entries.Perm
      (AList.insert key value table).entries :=
    replace_perm value found
  rw [AList.perm_lookup same]
  split
  next equal =>
    subst equal
    exact AList.lookup_insert table
  next differ => exact AList.lookup_insert_ne differ

section Weights

variable (weight : κ → ν → Nat)

/-- The sum of a weight over all rows. -/
def total (table : Table κ ν) : Nat :=
  (table.entries.map fun row => weight row.1 row.2).sum

omit [DecidableEq κ] in
@[simp]
theorem total_empty : total weight (∅ : Table κ ν) = 0 :=
  rfl

omit [DecidableEq κ] in
theorem total_of_perm {first : Table κ ν}
    {rows : List (Sigma fun _ : κ => ν)} (same : first.entries.Perm rows) :
    total weight first = (rows.map fun row => weight row.1 row.2).sum :=
  (same.map _).sum_eq

/-- Erasing a row takes its weight off the total. -/
theorem total_erase {key : κ} {value : ν} {table : Table κ ν}
    (found : AList.lookup key table = some value) :
    total weight (AList.erase key table) + weight key value =
      total weight table := by
  rw [total_of_perm weight (perm_cons_erase found), List.map_cons,
    List.sum_cons, total, Nat.add_comm]

theorem total_insert (arrangement : Arrangement) (key : κ) (value : ν)
    (table : Table κ ν) :
    total weight (insert arrangement key value table) =
      weight key value + total weight (AList.erase key table) := by
  rw [total_of_perm weight (insert_perm arrangement key value table)]
  rfl

/-- Replacing a value by one of the same weight keeps the total. -/
theorem total_replace {key : κ} {old value : ν} {table : Table κ ν}
    (found : AList.lookup key table = some old)
    (sameWeight : weight key value = weight key old) :
    total weight (AList.replace key value table) = total weight table := by
  rw [total_of_perm weight (replace_perm value found), List.map_cons,
    List.sum_cons, sameWeight, ← total_erase weight found, Nat.add_comm]
  rfl

end Weights

end Table

end RustiCache
