import Mathlib.Data.List.Basic
import Mathlib.Tactic.Common

/-!
# Sweeps over the front of a list

A sweep looks at the first items of a list, as many as its sample allows, and
takes out those that are due.  Items that are not due stay in front, so an item
is only ever looked at if fewer than the sample of them stand before it.  That
every due item is within reach in this sense is what repeated sweeps need, and
all they need, to take out everything that is due.
-/

namespace RustiCache

namespace SampledSweep

variable {α : Type*}

/-- Take the due items out of the first `sample` items. -/
def sweep (due : α → Bool) (sample : Nat) (items : List α) : List α :=
  (items.take sample).filter (fun item => !due item) ++ items.drop sample

/-- Sweeps one after another, each with what is due by then. -/
def sweeps (due : Nat → α → Bool) (sample : Nat) : Nat → List α → List α
  | 0, items => items
  | count + 1, items => sweep (due count) sample (sweeps due sample count items)

/-- Before a due item fewer than `sample` items stand that are not due. -/
def WithinReach (due : α → Bool) (sample : Nat) (items : List α) : Prop :=
  ∀ before item after, items = before ++ item :: after → due item = true →
    before.countP (fun other => !due other) < sample

theorem sweep_sublist (due : α → Bool) (sample : Nat) (items : List α) :
    (sweep due sample items).Sublist items := by
  have kept := (List.filter_sublist (p := fun item => !due item)
    (l := items.take sample)).append (List.Sublist.refl (items.drop sample))
  rwa [List.take_append_drop] at kept

theorem sweeps_sublist (due : Nat → α → Bool) (sample count : Nat)
    (items : List α) : (sweeps due sample count items).Sublist items := by
  induction count with
  | zero => exact List.Sublist.refl items
  | succ count ih => exact (sweep_sublist _ _ _).trans ih

/-- Taking items out brings no item out of reach. -/
theorem WithinReach.sublist {due : α → Bool} {sample : Nat}
    {items kept : List α} (within : WithinReach due sample items)
    (less : kept.Sublist items) : WithinReach due sample kept := by
  intro before item after layout isDue
  rw [layout] at less
  obtain ⟨front, back, rfl, inFront, inBack⟩ := List.append_sublist_iff.mp less
  obtain ⟨skipped, rest, rfl, member, -⟩ := List.cons_sublist_iff.mp inBack
  obtain ⟨earlier, later, rfl⟩ := List.append_of_mem member
  have reach := within (front ++ earlier) item (later ++ rest) (by simp) isDue
  rw [List.countP_append] at reach
  have fewer := inFront.countP_le (p := fun other => !due other)
  omega

/-- What was due before is due at every sweep, so the sample loses all of it. -/
theorem countP_sweep {due later : α → Bool}
    (grows : ∀ item, due item = true → later item = true) (sample : Nat)
    (items : List α) :
    (sweep later sample items).countP due = (items.drop sample).countP due := by
  have swept : ((items.take sample).filter fun item => !later item).countP due =
      0 := by
    rw [List.countP_eq_zero]
    intro item member isDue
    have stays := (List.mem_filter.mp member).2
    rw [grows item isDue] at stays
    cases stays
  rw [sweep, List.countP_append, swept, Nat.zero_add]

/-- The first due item is in the sample. -/
theorem due_in_sample {due : α → Bool} {sample : Nat} {items : List α}
    (within : WithinReach due sample items) (some : items.countP due ≠ 0) :
    0 < (items.take sample).countP due := by
  obtain ⟨witness, listed, isWitnessDue⟩ :=
    List.countP_pos_iff.mp (Nat.pos_of_ne_zero some)
  have found : (items.find? due).isSome :=
    List.find?_isSome.mpr ⟨witness, listed, isWitnessDue⟩
  obtain ⟨item, first⟩ := Option.isSome_iff_exists.mp found
  obtain ⟨isDue, before, after, rfl, none⟩ :=
    List.find?_eq_some_iff_append.mp first
  have reach := within before item after rfl isDue
  rw [List.countP_eq_length.mpr none] at reach
  rw [List.countP_pos_iff]
  refine ⟨item, ?_, isDue⟩
  rw [List.take_append]
  obtain ⟨spare, gap⟩ : ∃ spare, sample - before.length = spare + 1 :=
    ⟨sample - before.length - 1, by omega⟩
  rw [gap, List.take_succ_cons]
  simp

/-- Every sweep takes out an item that was due at the start, as long as there
is one. -/
theorem countP_sweep_lt {due later : α → Bool}
    (grows : ∀ item, due item = true → later item = true) {sample : Nat}
    {items : List α} (within : WithinReach due sample items)
    (some : items.countP due ≠ 0) :
    (sweep later sample items).countP due < items.countP due := by
  have sampled := due_in_sample within some
  have split : items.countP due =
      (items.take sample).countP due + (items.drop sample).countP due := by
    rw [← List.countP_append, List.take_append_drop]
  rw [countP_sweep grows, split]
  omega

/-- As many sweeps as items are due leave none of them. -/
theorem countP_sweeps_le {due : α → Bool} {later : Nat → α → Bool}
    (grows : ∀ count item, due item = true → later count item = true)
    {sample : Nat} {items : List α} (within : WithinReach due sample items)
    (count : Nat) :
    (sweeps later sample count items).countP due ≤ items.countP due - count := by
  induction count with
  | zero => exact Nat.le_refl _
  | succ count ih =>
      have reach := within.sublist (sweeps_sublist later sample count items)
      rw [sweeps]
      by_cases none : (sweeps later sample count items).countP due = 0
      · have fewer := (sweep_sublist (later count) sample
          (sweeps later sample count items)).countP_le (p := due)
        omega
      · have fewer := countP_sweep_lt (grows count) reach none
        omega

/-- An item out of reach stays so, if nothing else ever becomes due. -/
theorem sweeps_out_of_reach {due : α → Bool} {sample : Nat}
    {before : List α} (item : α) (after : List α)
    (far : sample ≤ before.countP fun other => !due other) (count : Nat) :
    ∃ front, sample ≤ front.countP (fun other => !due other) ∧
      sweeps (fun _ => due) sample count (before ++ item :: after) =
        front ++ item :: after := by
  induction count with
  | zero => exact ⟨before, far, rfl⟩
  | succ count ih =>
      obtain ⟨front, stillFar, layout⟩ := ih
      have inside : sample ≤ front.length :=
        Nat.le_trans stillFar List.countP_le_length
      refine ⟨sweep due sample front, ?_, ?_⟩
      · have same : (sweep due sample front).countP (fun other => !due other) =
            front.countP fun other => !due other := by
          rw [sweep, List.countP_append, List.countP_filter]
          simp only [Bool.and_self]
          rw [← List.countP_append, List.take_append_drop]
        rwa [same]
      · rw [sweeps, layout, sweep, List.take_append_of_le_length inside,
          List.drop_append_of_le_length inside, ← List.append_assoc, ← sweep]

end SampledSweep

end RustiCache
