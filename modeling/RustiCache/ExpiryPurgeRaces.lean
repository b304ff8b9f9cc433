import RustiCache.ActionRuns
import RustiCache.ShardedStoreScans
import RustiCache.ShardedStoreTotals

/-!
# Purging next to client operations

A purge visits the shards one by one, and in each it scans under a read lock
and then removes under a write lock.  Other tasks act between the two: here
their actions are the write-locked sections of `get`, `set`, `del` and of the
eviction loop, each with its own clock reading.  A removal is harmless as long
as the notes of its scan still describe the store.
-/

namespace RustiCache

/-- Where a running purge stands. -/
inductive PurgePhase where
  | scanning (idx : Nat)
  | removing (idx : Nat) (keysToRemove : List (String × Nat))
deriving DecidableEq

structure PurgeTask where
  now : Instant
  samplePerShard : Nat
  phase : PurgePhase
  purged : Nat
deriving DecidableEq

/-- A store with the purges running on it. -/
structure PurgeSystem (hasher : String → UInt64) where
  db : Db hasher
  tasks : Nat → Option PurgeTask

inductive PurgeAction where
  | start (task : Nat) (now : Instant) (samplePerShard : Nat)
  | scan (task : Nat)
  | remove (task : Nat)
  | finish (task : Nat)
  | getTouch (now : Instant) (key : String)
  | getCleanup (now : Instant) (key : String)
  | evict (idx : Nat) (key : String)
  | set (arrangement : Arrangement) (now : Instant) (key : String)
      (value : Bytes) (expiresAt : Option Instant)
  | del (key : String)

namespace PurgeSystem

variable {hasher : String → UInt64}

def setTask (system : PurgeSystem hasher) (task : Nat)
    (running : Option PurgeTask) : PurgeSystem hasher :=
  { system with tasks := Function.update system.tasks task running }

/-- The scan of one shard; without expired keys the purge goes on to the next
shard and takes no write lock. -/
def scanned (db : Db hasher) (purge : PurgeTask) (idx : Nat) : PurgeTask :=
  let keysToRemove := Db.keysToRemove (db.shard idx) purge.now purge.samplePerShard
  if keysToRemove.isEmpty then
    { purge with phase := .scanning (idx + 1) }
  else
    { purge with phase := .removing idx keysToRemove }

/-- The write-locked removal of the eviction loop, for the key it sampled. -/
def evicted (db : Db hasher) (idx : Nat) (key : String) : Db hasher :=
  match AList.lookup key (db.shard idx) with
  | some removed => (db.removeEntry idx key).fetchSub removed.approxSizeBytes
  | none => db

def step (system : PurgeSystem hasher) :
    PurgeAction → Option (PurgeSystem hasher)
  | .start task now samplePerShard =>
      match system.tasks task with
      | none =>
          some (system.setTask task
            (some ⟨now, samplePerShard, .scanning 0, 0⟩))
      | some _ => none
  | .scan task =>
      match system.tasks task with
      | some purge =>
          match purge.phase with
          | .scanning idx =>
              if idx < system.db.shards.length then
                some (system.setTask task (some (scanned system.db purge idx)))
              else
                none
          | .removing _ _ => none
      | none => none
  | .remove task =>
      match system.tasks task with
      | some purge =>
          match purge.phase with
          | .scanning _ => none
          | .removing idx keysToRemove =>
              let (purged, db) :=
                Db.purgeKeys idx (purge.purged, system.db) keysToRemove
              some (setTask ⟨db, system.tasks⟩ task
                (some ⟨purge.now, purge.samplePerShard, .scanning (idx + 1),
                  purged⟩))
      | none => none
  | .finish task =>
      match system.tasks task with
      | some purge =>
          if purge.phase = .scanning system.db.shards.length then
            some (system.setTask task none)
          else
            none
      | none => none
  | .getTouch now key =>
      some ⟨(system.db.getTouch now key).2, system.tasks⟩
  | .getCleanup now key => some ⟨system.db.getCleanup now key, system.tasks⟩
  | .evict idx key => some ⟨evicted system.db idx key, system.tasks⟩
  | .set arrangement now key value expiresAt =>
      some ⟨system.db.setEntry arrangement key
        (Entry.new (asBytes key).length value expiresAt now), system.tasks⟩
  | .del key => some ⟨(system.db.del key).2, system.tasks⟩

/-- A purge is about to remove the noted keys. -/
def Removing (system : PurgeSystem hasher) (purge : PurgeTask) (idx : Nat)
    (noted : List (String × Nat)) : Prop :=
  ∃ task, system.tasks task = some purge ∧ purge.phase = .removing idx noted

/-- An entry taken out by a removal step, the amount subtracted for it, and the
memory counter just before. -/
structure Removal where
  entry : Entry
  subtracted : Nat
  usedBefore : UInt64
deriving DecidableEq

/-- The entries that a removal step takes out. -/
def removals (idx : Nat) :
    Nat × Db hasher → List (String × Nat) → List Removal
  | _, [] => []
  | progress, row :: noted =>
      let rest := removals idx (Db.purgeKey idx progress row) noted
      match AList.lookup row.1 (progress.2.shard idx) with
      | some entry => ⟨entry, row.2, progress.2.usedMemory⟩ :: rest
      | none => rest

/-- A removal takes out an expired entry and subtracts exactly its size, which
the counter can bear. -/
def Removal.Harmless (removal : Removal) (now : Instant) : Prop :=
  removal.entry.isExpired now ∧
    removal.subtracted = removal.entry.approxSizeBytes ∧
    removal.subtracted ≤ removal.usedBefore.toNat

/-- No removal step can do damage in this state, and the memory counter shows
the sizes of the stored entries. -/
def Safe (system : PurgeSystem hasher) : Prop :=
  system.db.Accounted ∧
    ∀ purge idx noted, system.Removing purge idx noted →
      system.db.storedSize < 2 ^ 64 →
      ∀ removal ∈ removals idx (purge.purged, system.db) noted,
        removal.Harmless purge.now

/-- A `set` that lands on a key noted by a purge writes an entry that the notes
describe too; in particular a `set` of a key that no purge has noted. -/
def Undisturbed (system : PurgeSystem hasher) : PurgeAction → Prop
  | .set _ now key value expiresAt =>
      ∀ purge idx noted size, system.Removing purge idx noted →
        (key, size) ∈ noted →
        (Entry.new (asBytes key).length value expiresAt now).isExpired
          purge.now ∧
        (Entry.new (asBytes key).length value expiresAt now).approxSizeBytes =
          size
  | _ => True

/-- The counter is right and all notes are valid. -/
structure Sound (system : PurgeSystem hasher) : Prop where
  accounted : system.db.Accounted
  captured : ∀ {purge idx noted}, system.Removing purge idx noted →
    system.db.Captured purge.now noted

theorem storedSize_of_lookup {db : Db hasher} {idx : Nat} {key : String}
    {entry : Entry} (found : AList.lookup key (db.shard idx) = some entry) :
    entry.approxSizeBytes ≤ db.storedSize := by
  have removed :=
    Db.total_removeEntry (fun _ entry => entry.approxSizeBytes) found
  rw [Db.storedSize]
  omega

theorem harmless_of_captured {progress : Nat × Db hasher} {idx : Nat}
    {now : Instant} {noted : List (String × Nat)}
    (accounted : progress.2.Accounted)
    (captured : progress.2.Captured now noted)
    (fits : progress.2.storedSize < 2 ^ 64) :
    ∀ removal ∈ removals idx progress noted, removal.Harmless now := by
  induction noted generalizing progress with
  | nil =>
      intro removal member
      cases member
  | cons row noted ih =>
      intro removal member
      have rest := captured.tail idx
      rw [removals] at member
      rcases Db.purgeKey_cases idx progress row with
        ⟨entry, found, removed⟩ | ⟨missing, kept⟩
      · obtain ⟨expired, size⟩ :=
          captured row (by simp) entry (Db.find_of_lookup found)
        simp only [found, List.mem_cons] at member
        rcases member with first | later
        · subst first
          refine ⟨expired, size.symm, ?_⟩
          rw [accounted, UInt64.toNat_ofNat_of_lt' fits, ← size]
          exact storedSize_of_lookup found
        · rw [removed] at later rest
          rw [← size] at later rest
          have sum := Db.total_removeEntry
            (fun _ entry => entry.approxSizeBytes) found
          refine ih (accounted.removeEntry found) rest ?_ removal later
          change (progress.2.removeEntry idx row.1).storedSize < 2 ^ 64
          rw [Db.storedSize] at fits ⊢
          omega
      · simp only [missing] at member
        rw [kept] at member rest
        exact ih accounted rest fits removal member

theorem Sound.safe {system : PurgeSystem hasher} (sound : system.Sound) :
    system.Safe := by
  refine ⟨sound.accounted, ?_⟩
  intro purge idx noted removing fits
  exact harmless_of_captured sound.accounted (sound.captured removing) fits

end PurgeSystem

end RustiCache
