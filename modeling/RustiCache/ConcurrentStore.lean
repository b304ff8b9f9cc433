import RustiCache.ActionRuns
import RustiCache.ShardedStoreTotals
import Mathlib.Algebra.BigOperators.Fin
import Mathlib.Algebra.Order.BigOperators.Group.Finset

/-!
# Tasks running on one sharded store

A finite set of tasks runs `get`, `set` and `del` on one store.  The steps are
those that other tasks can tell apart: taking and releasing a shard's lock, the
update of the table under the lock, and each single operation on the memory
counter.  The lock guards are part of a task's own position, so a lock can be
taken when no other task stands inside a conflicting section.
-/

namespace RustiCache

/-- An operation on the memory counter that a task still has to make. -/
inductive Adjustment where
  | fetchSub (amount : Nat)
  | fetchAdd (amount : Nat)
deriving DecidableEq

/-- The arguments of a `set`. -/
structure PendingWrite where
  key : String
  value : Bytes
  expiresAt : Option Instant
deriving DecidableEq

/-- What a task does under a shard's write lock. -/
inductive LockedSection where
  | touch (key : String)
  | cleanup (key : String)
  | insert (key : String) (newEntry : Entry)
  | remove (key : String)
  | evict (idx : Nat) (key : String) (write : PendingWrite)
deriving DecidableEq

/-- Where a task goes on after releasing the write lock. -/
inductive AfterSection where
  | done (answer : StoreAnswer)
  | cleanup (key : String)
  | load (write : PendingWrite)
  | prepare (write : PendingWrite)
deriving DecidableEq

/-- The position of a task in the code of the store.  Between calls it has the
answer of the last one. -/
inductive StoreTask where
  | returned (answer : StoreAnswer)
  | loading (write : PendingWrite)
  | scanning (idx : Nat) (oldest : Option (Nat × String × Instant))
      (write : PendingWrite)
  | reading (idx : Nat) (oldest : Option (Nat × String × Instant))
      (write : PendingWrite)
  | sampled (idx : Nat) (oldest : Option (Nat × String × Instant))
      (write : PendingWrite)
  | preparing (write : PendingWrite)
  | waiting (code : LockedSection)
  | locked (code : LockedSection)
  | adjusting (idx : Nat) (owed : List Adjustment) (next : AfterSection)
deriving DecidableEq

/-- A step of one task; clock readings and the order of a table after an
insertion come from outside. -/
inductive TaskAction where
  | get (key : String)
  | set (key : String) (value : Bytes) (expiresAt : Option Instant)
  | del (key : String)
  | load
  | lockRead
  | sample
  | unlockRead
  | choose
  | prepare (now : Instant)
  | lockWrite
  | perform (now touchedAt : Instant) (arrangement : Arrangement)
  | adjust
  | unlock

namespace LockedSection

variable {hasher : String → UInt64}

/-- The shard whose lock a section needs. -/
def shardIndex (db : Db hasher) : LockedSection → Nat
  | touch key => db.shardIndex key
  | cleanup key => db.shardIndex key
  | insert key _ => db.shardIndex key
  | remove key => db.shardIndex key
  | evict idx _ _ => idx

/-- The table update of a section, the counter operations it leaves to do, and
what follows the section. -/
def perform (db : Db hasher) (now touchedAt : Instant)
    (arrangement : Arrangement) :
    LockedSection → Db hasher × List Adjustment × AfterSection
  | touch key =>
      match AList.lookup key (db.shard (db.shardIndex key)) with
      | some entry =>
          if entry.isExpired now then
            (db, [], .cleanup key)
          else
            (db.replaceEntry key (entry.touch touchedAt), [],
              .done (.value (some entry.value)))
      | none => (db, [], .done (.value none))
  | cleanup key =>
      match AList.lookup key (db.shard (db.shardIndex key)) with
      | some entry =>
          if entry.isExpired now then
            (db.removeEntry (db.shardIndex key) key,
              [.fetchSub entry.approxSizeBytes], .done (.value none))
          else
            (db, [], .done (.value none))
      | none => (db, [], .done (.value none))
  | insert key newEntry =>
      match AList.lookup key (db.shard (db.shardIndex key)) with
      | some old =>
          (db.insertEntry arrangement key newEntry,
            [.fetchSub old.approxSizeBytes, .fetchAdd newEntry.approxSizeBytes],
            .done .done)
      | none =>
          (db.insertEntry arrangement key newEntry,
            [.fetchAdd newEntry.approxSizeBytes], .done .done)
  | remove key =>
      match AList.lookup key (db.shard (db.shardIndex key)) with
      | some entry =>
          (db.removeEntry (db.shardIndex key) key,
            [.fetchSub entry.approxSizeBytes], .done (.flag true))
      | none => (db, [], .done (.flag false))
  | evict idx key write =>
      match AList.lookup key (db.shard idx) with
      | some removed =>
          (db.removeEntry idx key, [.fetchSub removed.approxSizeBytes],
            .load write)
      | none => (db, [], .prepare write)

end LockedSection

namespace StoreTask

variable {hasher : String → UInt64}

/-- The shard whose write lock the task holds. -/
def writes (db : Db hasher) : StoreTask → Option Nat
  | locked code => some (code.shardIndex db)
  | adjusting idx _ _ => some idx
  | _ => none

/-- The shard whose read lock the task holds. -/
def reads : StoreTask → Option Nat
  | reading idx _ _ => some idx
  | sampled idx _ _ => some idx
  | _ => none

/-- The counter operations that the task still owes. -/
def owed : StoreTask → List Adjustment
  | adjusting _ owed _ => owed
  | _ => []

def resume : AfterSection → StoreTask
  | .done answer => returned answer
  | .cleanup key => waiting (.cleanup key)
  | .load write => loading write
  | .prepare write => preparing write

/-- The code of one task, lock availability aside. -/
def advance (db : Db hasher) : StoreTask → TaskAction → Option (StoreTask × Db hasher)
  | returned _, .get key => some (waiting (.touch key), db)
  | returned _, .set key value expiresAt =>
      if 0 < db.maxMemoryBytes then
        some (loading ⟨key, value, expiresAt⟩, db)
      else
        some (preparing ⟨key, value, expiresAt⟩, db)
  | returned _, .del key => some (waiting (.remove key), db)
  | loading write, .load =>
      if db.maxMemoryBytes ≤ db.usedMemory.toNat then
        some (scanning 0 none write, db)
      else
        some (preparing write, db)
  | scanning idx oldest write, .lockRead =>
      if idx < db.shards.length then
        some (reading idx oldest write, db)
      else
        none
  | reading idx oldest write, .sample =>
      some (sampled idx
        (((db.shard idx).entries.take 5).foldl (Db.older idx) oldest) write, db)
  | sampled idx oldest write, .unlockRead =>
      some (scanning (idx + 1) oldest write, db)
  | scanning idx oldest write, .choose =>
      if idx = db.shards.length then
        match oldest with
        | some (oldestIdx, key, _) =>
            some (waiting (.evict oldestIdx key write), db)
        | none => some (preparing write, db)
      else
        none
  | preparing write, .prepare now =>
      some (waiting (.insert write.key
        (Entry.new (asBytes write.key).length write.value write.expiresAt now)),
        db)
  | waiting code, .lockWrite => some (locked code, db)
  | locked code, .perform now touchedAt arrangement =>
      let (updated, owed, next) := code.perform db now touchedAt arrangement
      some (adjusting (code.shardIndex db) owed next, updated)
  | adjusting idx (.fetchSub amount :: owed) next, .adjust =>
      some (adjusting idx owed next, db.fetchSub amount)
  | adjusting idx (.fetchAdd amount :: owed) next, .adjust =>
      some (adjusting idx owed next, db.fetchAdd amount)
  | adjusting _ [] next, .unlock => some (resume next, db)
  | _, _ => none

end StoreTask

/-- A store with the tasks running on it. -/
structure StoreSystem (ι : Type) (hasher : String → UInt64) where
  db : Db hasher
  tasks : ι → StoreTask

namespace StoreSystem

variable {ι : Type} [Fintype ι] [DecidableEq ι] {hasher : String → UInt64}

/-- The lock that an action needs is free. -/
def available (system : StoreSystem ι hasher) (task : ι) : TaskAction → Bool
  | .lockWrite =>
      match system.tasks task with
      | .waiting code =>
          decide (∀ other, (system.tasks other).writes system.db ≠
              some (code.shardIndex system.db) ∧
            (system.tasks other).reads ≠ some (code.shardIndex system.db))
      | _ => false
  | .lockRead =>
      match system.tasks task with
      | .scanning idx _ _ =>
          decide (∀ other, (system.tasks other).writes system.db ≠ some idx)
      | _ => false
  | _ => true

def step (system : StoreSystem ι hasher) (action : ι × TaskAction) :
    Option (StoreSystem ι hasher) :=
  if system.available action.1 action.2 then
    (StoreTask.advance system.db (system.tasks action.1) action.2).map
      fun next => ⟨next.2, Function.update system.tasks action.1 next.1⟩
  else
    none

/-- A fresh store with no call under way. -/
def initial (ι : Type) (hasher : String → UInt64)
    (shardCount maxMemoryBytes : Nat) : StoreSystem ι hasher :=
  ⟨Db.withConfig hasher shardCount maxMemoryBytes, fun _ => .returned .done⟩

end StoreSystem

namespace Adjustment

/-- The amount by which the counter is still too high. -/
def excess : Adjustment → Nat
  | fetchSub amount => amount
  | fetchAdd _ => 0

/-- The amount by which the counter is still too low. -/
def deficit : Adjustment → Nat
  | fetchSub _ => 0
  | fetchAdd amount => amount

end Adjustment

namespace StoreTask

def excess (task : StoreTask) : Nat :=
  (task.owed.map Adjustment.excess).sum

def deficit (task : StoreTask) : Nat :=
  (task.owed.map Adjustment.deficit).sum

/-- What the counter shows too much because of the task. -/
def net (task : StoreTask) : Int :=
  task.excess - task.deficit

end StoreTask

end RustiCache
