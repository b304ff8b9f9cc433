import Mathlib.Data.List.Chain
import Mathlib.Data.List.Induction
import Mathlib.Tactic.Common

/-!
# Run-length encoding

A table has an item at some of its places, and an item has a label.  One pass
over the table finds the maximal runs of places with one label: the current run
is extended, closed, or followed by a new one.
-/

namespace RustiCache

/-- Consecutive places, with the item at the first of them. -/
structure Run (α : Type) where
  first : Nat
  last : Nat
  item : α

namespace Run

variable {α ι : Type} (label : α → ι)

def Covers (run : Run α) (place : Nat) : Prop :=
  run.first ≤ place ∧ place ≤ run.last

/-- The label at a place of the table. -/
def labelAt (table : List (Option α)) (place : Nat) : Option ι :=
  (table.getD place none).map label

/-- The runs describe the table, in order and without a run that could have been
joined to the one before it. -/
structure Encodes (table : List (Option α)) (runs : List (Run α)) : Prop where
  filled : ∀ run ∈ runs, run.first ≤ run.last
  begins : ∀ run ∈ runs, table[run.first]? = some (some run.item)
  ordered : runs.Pairwise fun earlier later => earlier.last < later.first
  labels : ∀ place name,
    (∃ run ∈ runs, run.Covers place ∧ label run.item = name) ↔
      labelAt label table place = some name
  maximal : runs.IsChain fun earlier later =>
    ¬ (earlier.last + 1 = later.first ∧ label earlier.item = label later.item)

variable {label} {table : List (Option α)} {runs : List (Run α)}

theorem labelAt_concat (entry : Option α) (place : Nat) :
    labelAt label (table ++ [entry]) place =
      if place = table.length then entry.map label
      else labelAt label table place := by
  simp only [labelAt, List.getD_eq_getElem?_getD]
  split
  next same =>
    subst same
    simp
  next differ =>
    rcases Nat.lt_or_gt_of_ne differ with inside | outside
    · rw [List.getElem?_append_left inside]
    · rw [List.getElem?_eq_none, List.getElem?_eq_none]
      · omega
      · rw [List.length_append, List.length_singleton]
        omega

theorem lt_length_of_labelAt {place : Nat} {name : ι}
    (found : labelAt label table place = some name) : place < table.length := by
  by_contra outside
  rw [labelAt, List.getD_eq_getElem?_getD,
    List.getElem?_eq_none (Nat.le_of_not_lt outside)] at found
  cases found

theorem getElem?_concat {place : Nat} {entry : Option α}
    (found : table[place]? = some entry) (next : Option α) :
    (table ++ [next])[place]? = some entry := by
  obtain ⟨inside, -⟩ := List.getElem?_eq_some_iff.mp found
  rw [List.getElem?_append_left inside]
  exact found

namespace Encodes

theorem nil : Encodes label [] [] where
  filled := by simp
  begins := by simp
  ordered := List.Pairwise.nil
  labels := by simp [labelAt]
  maximal := List.IsChain.nil

theorem last_lt (encodes : Encodes label table runs) {run : Run α}
    (member : run ∈ runs) : run.last < table.length := by
  apply lt_length_of_labelAt
  exact (encodes.labels run.last (label run.item)).mp
    ⟨run, member, ⟨encodes.filled run member, le_rfl⟩, rfl⟩

theorem not_covers_length (encodes : Encodes label table runs) {run : Run α}
    (member : run ∈ runs) : ¬ run.Covers table.length := by
  intro covers
  have before := encodes.last_lt member
  have behind := covers.2
  omega

/-- The next place is empty. -/
theorem gap (encodes : Encodes label table runs) :
    Encodes label (table ++ [none]) runs where
  filled := encodes.filled
  begins run member := getElem?_concat (encodes.begins run member) none
  ordered := encodes.ordered
  maximal := encodes.maximal
  labels place name := by
    rw [labelAt_concat]
    split
    next same =>
      subst same
      constructor
      · rintro ⟨run, member, covers, -⟩
        exact absurd covers (encodes.not_covers_length member)
      · rintro ⟨⟩
    next => exact encodes.labels place name

/-- The next place begins a run. -/
theorem begin (encodes : Encodes label table runs) (item : α)
    (apart : ∀ run ∈ runs, run.last + 1 = table.length →
      label run.item ≠ label item) :
    Encodes label (table ++ [some item])
      (runs ++ [⟨table.length, table.length, item⟩]) where
  filled run member := by
    rcases List.mem_append.mp member with old | new
    · exact encodes.filled run old
    · rw [List.mem_singleton.mp new]
  begins run member := by
    rcases List.mem_append.mp member with old | new
    · exact getElem?_concat (encodes.begins run old) (some item)
    · rw [List.mem_singleton.mp new]
      exact List.getElem?_concat_length
  ordered := by
    rw [List.pairwise_append]
    refine ⟨encodes.ordered, List.pairwise_singleton _ _, ?_⟩
    intro run member last isLast
    rw [List.mem_singleton.mp isLast]
    exact encodes.last_lt member
  labels place name := by
    rw [labelAt_concat]
    split
    next same =>
      subst same
      constructor
      · rintro ⟨run, member, covers, rfl⟩
        rcases List.mem_append.mp member with old | new
        · exact absurd covers (encodes.not_covers_length old)
        · rw [List.mem_singleton.mp new]
          rfl
      · rintro ⟨⟩
        exact ⟨_, List.mem_append_right runs (List.mem_singleton_self _),
          ⟨le_rfl, le_rfl⟩, rfl⟩
    next differ =>
      rw [← encodes.labels place name]
      constructor
      · rintro ⟨run, member, covers, named⟩
        rcases List.mem_append.mp member with old | new
        · exact ⟨run, old, covers, named⟩
        · rw [List.mem_singleton.mp new] at covers
          exact absurd (le_antisymm covers.2 covers.1) differ
      · rintro ⟨run, old, covers, named⟩
        exact ⟨run, List.mem_append_left _ old, covers, named⟩
  maximal := by
    rw [List.isChain_append]
    refine ⟨encodes.maximal, List.isChain_singleton _, ?_⟩
    intro run isLast next isNext
    cases isNext
    rintro ⟨touching, same⟩
    exact apart run (List.mem_of_mem_getLast? isLast) touching same

/-- The next place continues the last run. -/
theorem extend {run : Run α} (encodes : Encodes label table (runs ++ [run]))
    (touching : run.last + 1 = table.length) {item : α}
    (same : label run.item = label item) :
    Encodes label (table ++ [some item])
      (runs ++ [{ run with last := table.length }]) where
  filled other member := by
    rcases List.mem_append.mp member with old | new
    · exact encodes.filled other (List.mem_append_left _ old)
    · have within := encodes.filled run (by simp)
      rw [List.mem_singleton.mp new]
      dsimp only
      omega
  begins other member := by
    rcases List.mem_append.mp member with old | new
    · exact getElem?_concat (encodes.begins other (List.mem_append_left _ old))
        (some item)
    · rw [List.mem_singleton.mp new]
      exact getElem?_concat (encodes.begins run (by simp)) (some item)
  ordered := by
    obtain ⟨front, -, before⟩ := List.pairwise_append.mp encodes.ordered
    rw [List.pairwise_append]
    refine ⟨front, List.pairwise_singleton _ _, ?_⟩
    intro other member last isLast
    rw [List.mem_singleton.mp isLast]
    exact before other member run (List.mem_singleton_self run)
  labels place name := by
    have within := encodes.filled run (by simp)
    have earlier := encodes.labels place name
    rw [labelAt_concat]
    simp only [List.mem_append, List.mem_singleton, or_and_right, exists_or,
      exists_eq_left, Covers] at earlier ⊢
    split
    next isNext =>
      subst isNext
      constructor
      · rintro (⟨other, old, covers, -⟩ | ⟨-, named⟩)
        · exact absurd covers
            (encodes.not_covers_length (List.mem_append_left _ old))
        · rw [← named, same]
          rfl
      · rintro ⟨⟩
        exact Or.inr ⟨⟨by omega, le_rfl⟩, same⟩
    next differ =>
      rw [← earlier]
      apply or_congr_right
      apply and_congr_left
      intro _
      omega
  maximal := by
    obtain ⟨front, -, before⟩ := List.isChain_append.mp encodes.maximal
    rw [List.isChain_append]
    refine ⟨front, List.isChain_singleton _, ?_⟩
    intro other isLast next isNext
    cases isNext
    exact before other isLast run rfl

end Encodes

section Pass

variable [DecidableEq ι] (label)

/-- Extend the current run by a place, or close it and begin a new one. -/
def advance (progress : List (Run α) × Option (Run α))
    (indexed : Option α × Nat) : List (Run α) × Option (Run α) :=
  match progress.2, indexed.1 with
  | some run, some item =>
      if label run.item = label item then
        (progress.1, some { run with last := indexed.2 })
      else
        (progress.1 ++ [run], some ⟨indexed.2, indexed.2, item⟩)
  | some run, none => (progress.1 ++ [run], none)
  | none, some item => (progress.1, some ⟨indexed.2, indexed.2, item⟩)
  | none, none => (progress.1, none)

/-- The pass over a table. -/
def scan (table : List (Option α)) : List (Run α) × Option (Run α) :=
  table.zipIdx.foldl (advance label) ([], none)

def encode (table : List (Option α)) : List (Run α) :=
  (scan label table).1 ++ (scan label table).2.toList

theorem scan_concat (table : List (Option α)) (entry : Option α) :
    scan label (table ++ [entry]) =
      advance label (scan label table) (entry, table.length) := by
  rw [scan, List.zipIdx_append, List.foldl_append]
  simp [scan]

/-- What is known in the middle of the pass. -/
structure Scanned (table : List (Option α))
    (progress : List (Run α) × Option (Run α)) : Prop where
  encodes : Encodes label table (progress.1 ++ progress.2.toList)
  touching : ∀ run ∈ progress.2, run.last + 1 = table.length
  apart : progress.2 = none → ∀ run ∈ progress.1, run.last + 1 < table.length

variable {label}

theorem advance_none (progress : List (Run α) × Option (Run α))
    (place : Nat) :
    advance label progress (none, place) =
      (progress.1 ++ progress.2.toList, none) := by
  obtain ⟨closed, current⟩ := progress
  cases current with
  | none => simp [advance]
  | some run => rfl

/-- An empty place closes the current run. -/
theorem Scanned.skip {progress : List (Run α) × Option (Run α)}
    (scanned : Scanned label table progress) :
    Scanned label (table ++ [none])
      (Run.advance label progress (none, table.length)) := by
  rw [advance_none]
  constructor
  · rw [Option.toList_none, List.append_nil]
    exact scanned.encodes.gap
  · rintro _ ⟨⟩
  · intro _ run member
    have before := scanned.encodes.last_lt member
    rw [List.length_append, List.length_singleton]
    omega

omit [DecidableEq ι] in
/-- Only the current run reaches up to the next place. -/
theorem Scanned.last_of_touching {closed : List (Run α)} {current run : Run α}
    (scanned : Scanned label table (closed, some current))
    (member : run ∈ closed ++ [current])
    (touching : run.last + 1 = table.length) : run = current := by
  rcases List.mem_append.mp member with old | new
  · have order := (List.pairwise_append.mp scanned.encodes.ordered).2.2 run old
      current (by simp)
    have within := scanned.encodes.filled current (by simp)
    have adjacent := scanned.touching current rfl
    omega
  · exact List.mem_singleton.mp new

theorem Scanned.take {progress : List (Run α) × Option (Run α)}
    (scanned : Scanned label table progress) (item : α) :
    Scanned label (table ++ [some item])
      (Run.advance label progress (some item, table.length)) := by
  have longer : table.length + 1 = (table ++ [some item]).length := by
    rw [List.length_append, List.length_singleton]
  obtain ⟨closed, current⟩ := progress
  cases current with
  | none =>
      have encodes := scanned.encodes
      simp only [Option.toList_none, List.append_nil] at encodes
      refine ⟨encodes.begin item ?_, ?_, by rintro ⟨⟩⟩
      · intro run member adjacent
        have before := scanned.apart rfl run member
        omega
      · rintro run ⟨⟩
        exact longer
  | some current =>
      rw [Run.advance]
      dsimp only
      split
      next same =>
        refine ⟨scanned.encodes.extend (scanned.touching current rfl) same, ?_,
          by rintro ⟨⟩⟩
        rintro run ⟨⟩
        exact longer
      next differ =>
        refine ⟨scanned.encodes.begin item ?_, ?_, by rintro ⟨⟩⟩
        · intro run member adjacent
          rw [scanned.last_of_touching member adjacent]
          exact differ
        · rintro run ⟨⟩
          exact longer

theorem scanned_scan (table : List (Option α)) :
    Scanned label table (scan label table) := by
  induction table using List.reverseRecOn with
  | nil => exact ⟨Encodes.nil, by rintro _ ⟨⟩, by rintro _ _ ⟨⟩⟩
  | append_singleton table entry ih =>
      rw [scan_concat]
      cases entry with
      | none => exact ih.skip
      | some item => exact ih.take item

/-- One pass finds the maximal runs. -/
theorem encodes_encode (table : List (Option α)) :
    Encodes label table (encode label table) :=
  (scanned_scan table).encodes

end Pass

end Run

end RustiCache
