import RustiCache.ConcurrentStore

/-!
# Memory accounting across tasks

Whatever the interleaving, the memory counter is the sum of the stored sizes
plus what tasks inside a write-locked section still have to subtract, minus what
they still have to add.  A task that owes an addition holds the lock of the
shard with the new entry, and no two tasks hold one lock, so the additions owed
never exceed what is stored.
-/

namespace RustiCache

/-- What a table update under the lock of a shard does, with the counter
operations that it leaves to do. -/
structure Performed {hasher : String → UInt64} (before after : Db hasher)
    (idx : Nat) (owed : List Adjustment) : Prop where
  counter : after.usedMemory = before.usedMemory
  mask : after.shardMask = before.shardMask
  elsewhere : ∀ other, idx ≠ other → after.shard other = before.shard other
  balance : after.storedSize + (owed.map Adjustment.excess).sum =
    before.storedSize + (owed.map Adjustment.deficit).sum
  covered : (owed.map Adjustment.deficit).sum ≤
    Table.total (fun _ entry => entry.approxSizeBytes) (after.shard idx)

namespace Performed

variable {hasher : String → UInt64}

theorem unchanged (db : Db hasher) (idx : Nat) : Performed db db idx [] where
  counter := rfl
  mask := rfl
  elsewhere := fun _ _ => rfl
  balance := rfl
  covered := Nat.zero_le _

theorem touch {db : Db hasher} {key : String} {entry : Entry}
    (found : db.find key = some entry) (now : Instant) :
    Performed db (db.replaceEntry key (entry.touch now)) (db.shardIndex key)
      [] where
  counter := rfl
  mask := rfl
  elsewhere := fun _ differ => Db.shard_putShard_ne _ _ _ differ
  balance := by
    have same : (db.replaceEntry key (entry.touch now)).storedSize =
        db.storedSize :=
      Db.total_replaceEntry _ found rfl
    rw [same]
    rfl
  covered := Nat.zero_le _

theorem remove {db : Db hasher} {idx : Nat} {key : String} {entry : Entry}
    (found : AList.lookup key (db.shard idx) = some entry) :
    Performed db (db.removeEntry idx key) idx
      [.fetchSub entry.approxSizeBytes] where
  counter := rfl
  mask := rfl
  elsewhere := fun _ differ => Db.shard_putShard_ne _ _ _ differ
  balance := by
    have removed :=
      Db.total_removeEntry (fun _ entry => entry.approxSizeBytes) found
    simpa [Db.storedSize, Adjustment.excess, Adjustment.deficit] using removed
  covered := Nat.zero_le _

/-- The new entry is in the shard whose lock is held. -/
theorem size_le_total_insert (db : Db hasher) (arrangement : Arrangement)
    (key : String) (entry : Entry) :
    entry.approxSizeBytes ≤ Table.total (fun _ entry => entry.approxSizeBytes)
      ((db.insertEntry arrangement key entry).shard (db.shardIndex key)) := by
  rw [Db.insertEntry, Db.shard_putShard_self _ _ _ (db.shardIndex_lt key),
    Table.total_insert]
  exact Nat.le_add_right _ _

theorem insert (db : Db hasher) (arrangement : Arrangement) (key : String)
    (entry : Entry) {owed : List Adjustment}
    (excess : (owed.map Adjustment.excess).sum =
      (db.find key).elim 0 Entry.approxSizeBytes)
    (deficit : (owed.map Adjustment.deficit).sum = entry.approxSizeBytes) :
    Performed db (db.insertEntry arrangement key entry) (db.shardIndex key)
      owed where
  counter := rfl
  mask := rfl
  elsewhere := fun _ differ => Db.shard_putShard_ne _ _ _ differ
  balance := by
    rw [excess, deficit]
    exact db.total_insertEntry (fun _ entry => entry.approxSizeBytes)
      arrangement key entry
  covered := by
    rw [deficit]
    exact size_le_total_insert db arrangement key entry

end Performed

namespace LockedSection

variable {hasher : String → UInt64}

theorem perform_performed (db : Db hasher) (now touchedAt : Instant)
    (arrangement : Arrangement) (code : LockedSection) :
    Performed db (code.perform db now touchedAt arrangement).1
      (code.shardIndex db)
      (code.perform db now touchedAt arrangement).2.1 := by
  cases code with
  | touch key =>
      rw [perform, shardIndex]
      split
      next entry found =>
        split
        next => exact Performed.unchanged db _
        next => exact Performed.touch found touchedAt
      next => exact Performed.unchanged db _
  | cleanup key =>
      rw [perform, shardIndex]
      split
      next entry found =>
        split
        next => exact Performed.remove found
        next => exact Performed.unchanged db _
      next => exact Performed.unchanged db _
  | insert key newEntry =>
      rw [perform, shardIndex]
      split
      next old found =>
        apply Performed.insert
        · simp [Db.find, found, Adjustment.excess]
        · simp [Adjustment.deficit]
      next missing =>
        apply Performed.insert
        · simp [Db.find, missing, Adjustment.excess]
        · simp [Adjustment.deficit]
  | remove key =>
      rw [perform, shardIndex]
      split
      next entry found => exact Performed.remove found
      next => exact Performed.unchanged db _
  | evict idx key write =>
      rw [perform, shardIndex]
      split
      next removed found => exact Performed.remove found
      next => exact Performed.unchanged db _

end LockedSection

namespace Adjustment

variable {hasher : String → UInt64}

def apply (db : Db hasher) : Adjustment → Db hasher
  | fetchSub amount => db.fetchSub amount
  | fetchAdd amount => db.fetchAdd amount

end Adjustment

namespace StoreTask

variable {hasher : String → UInt64}

theorem writes_congr {before after : Db hasher}
    (mask : after.shardMask = before.shardMask) (task : StoreTask) :
    task.writes after = task.writes before := by
  cases task with
  | locked code =>
      cases code <;>
        simp [writes, LockedSection.shardIndex, Db.shardIndex, mask]
  | _ => rfl

/-- What one step of a task can do: move between positions where it owes
nothing, take a write lock, update a table, or settle one counter operation. -/
inductive Advances (db : Db hasher) : StoreTask → TaskAction → StoreTask →
    Db hasher → Prop where
  | moves {task next : StoreTask} {action : TaskAction}
      (settled : task.owed = []) (outside : next.writes db = none)
      (settledNext : next.owed = []) : Advances db task action next db
  | locks {code : LockedSection} :
      Advances db (waiting code) .lockWrite (locked code) db
  | performs {code : LockedSection} {action : TaskAction} {after : Db hasher}
      {owed : List Adjustment} {next : AfterSection}
      (performed : Performed db after (code.shardIndex db) owed) :
      Advances db (locked code) action
        (adjusting (code.shardIndex db) owed next) after
  | adjusts {idx : Nat} {adjustment : Adjustment} {owed : List Adjustment}
      {next : AfterSection} {action : TaskAction} :
      Advances db (adjusting idx (adjustment :: owed) next) action
        (adjusting idx owed next) (adjustment.apply db)

theorem resume_outside (db : Db hasher) (next : AfterSection) :
    (resume next).writes db = none ∧ (resume next).owed = [] := by
  cases next <;> exact ⟨rfl, rfl⟩

theorem advances_of_advance {db after : Db hasher} {task next : StoreTask}
    {action : TaskAction} (taken : task.advance db action = some (next, after)) :
    Advances db task action next after := by
  unfold advance at taken
  split at taken
  case h_1 | h_3 | h_6 | h_7 | h_9 =>
    cases taken
    exact .moves rfl rfl rfl
  case h_2 | h_4 =>
    split at taken <;> cases taken <;> exact .moves rfl rfl rfl
  case h_5 =>
    split at taken
    next =>
      cases taken
      exact .moves rfl rfl rfl
    next => cases taken
  case h_8 =>
    split at taken
    next =>
      split at taken <;> cases taken <;> exact .moves rfl rfl rfl
    next => cases taken
  case h_10 =>
    cases taken
    exact .locks
  case h_11 code now touchedAt arrangement =>
    cases taken
    exact .performs (code.perform_performed db now touchedAt arrangement)
  case h_12 | h_13 =>
    cases taken
    exact .adjusts
  case h_14 next =>
    cases taken
    obtain ⟨outside, settled⟩ := resume_outside db next
    exact .moves rfl outside settled
  case h_15 => cases taken

end StoreTask

namespace StoreSystem

variable {ι : Type} [Fintype ι] [DecidableEq ι] {hasher : String → UInt64}

/-- The amount that tasks still have to subtract from the counter. -/
def excess (system : StoreSystem ι hasher) : Nat :=
  ∑ task, (system.tasks task).excess

/-- The amount that tasks still have to add to the counter. -/
def deficit (system : StoreSystem ι hasher) : Nat :=
  ∑ task, (system.tasks task).deficit

theorem sum_update (weight : StoreTask → Nat)
    (tasks : ι → StoreTask) (task : ι) (next : StoreTask) :
    (∑ other, weight (Function.update tasks task next other)) +
        weight (tasks task) =
      (∑ other, weight (tasks other)) + weight next := by
  have rest : ∑ other ∈ Finset.univ.erase task,
      weight (Function.update tasks task next other) =
      ∑ other ∈ Finset.univ.erase task, weight (tasks other) := by
    apply Finset.sum_congr rfl
    intro other member
    rw [Function.update_of_ne (Finset.ne_of_mem_erase member)]
  have member : task ∈ (Finset.univ : Finset ι) := Finset.mem_univ task
  rw [← Finset.sum_erase_add _ _ member, ← Finset.sum_erase_add _ _ member,
    rest, Function.update_self]
  omega

theorem excess_update (system : StoreSystem ι hasher) (after : Db hasher)
    (task : ι) (next : StoreTask) :
    excess ⟨after, Function.update system.tasks task next⟩ +
        (system.tasks task).excess =
      system.excess + next.excess :=
  sum_update StoreTask.excess system.tasks task next

theorem deficit_update (system : StoreSystem ι hasher) (after : Db hasher)
    (task : ι) (next : StoreTask) :
    deficit ⟨after, Function.update system.tasks task next⟩ +
        (system.tasks task).deficit =
      system.deficit + next.deficit :=
  sum_update StoreTask.deficit system.tasks task next

/-- The invariant of all runs. -/
structure Balanced (system : StoreSystem ι hasher) : Prop where
  exclusive : ∀ {task other : ι} {idx : Nat},
    (system.tasks task).writes system.db = some idx →
    (system.tasks other).writes system.db = some idx → task = other
  covered : ∀ {task : ι} {idx : Nat},
    (system.tasks task).writes system.db = some idx →
    (system.tasks task).deficit ≤
      Table.total (fun _ entry => entry.approxSizeBytes) (system.db.shard idx)
  counter : system.db.usedMemory + UInt64.ofNat system.deficit =
    UInt64.ofNat (system.db.storedSize + system.excess)

omit [Fintype ι] in
/-- Locks stay exclusive when a task enters a shard that nobody else is in. -/
theorem exclusive_update {system : StoreSystem ι hasher} {task : ι}
    {next : StoreTask} {after : Db hasher}
    (mask : after.shardMask = system.db.shardMask)
    (exclusive : ∀ {task other : ι} {idx : Nat},
      (system.tasks task).writes system.db = some idx →
      (system.tasks other).writes system.db = some idx → task = other)
    (alone : ∀ idx, next.writes after = some idx → ∀ other, other ≠ task →
      (system.tasks other).writes system.db ≠ some idx)
    {first second : ι} {idx : Nat}
    (firstWrites : (Function.update system.tasks task next first).writes after =
      some idx)
    (secondWrites : (Function.update system.tasks task next second).writes
      after = some idx) :
    first = second := by
  by_cases firstMoves : first = task
  · by_cases secondMoves : second = task
    · rw [firstMoves, secondMoves]
    · rw [firstMoves, Function.update_self] at firstWrites
      rw [Function.update_of_ne secondMoves, StoreTask.writes_congr mask]
        at secondWrites
      exact absurd secondWrites (alone idx firstWrites second secondMoves)
  · rw [Function.update_of_ne firstMoves, StoreTask.writes_congr mask]
      at firstWrites
    by_cases secondMoves : second = task
    · rw [secondMoves, Function.update_self] at secondWrites
      exact absurd firstWrites (alone idx secondWrites first firstMoves)
    · rw [Function.update_of_ne secondMoves, StoreTask.writes_congr mask]
        at secondWrites
      exact exclusive firstWrites secondWrites

end StoreSystem

end RustiCache
