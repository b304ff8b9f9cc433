import RustiCache.EvictionRounds
import RustiCache.ExpiryPurgeSafety
import RustiCache.TimedMapRefinement

/-!
# The bound on the memory in use

Every operation but an insertion only loses entries together with their sizes.
An insertion first runs the eviction loop, which leaves the counter below the
bound, since an empty store has the counter at zero.  A run of calls on a store
of its own therefore never takes the counter further above the bound than the
largest entry that was inserted.
-/

namespace RustiCache

namespace Db

variable {hasher : String → UInt64}

theorem storedSize_removeEntry_le {db : Db hasher} {idx : Nat} {key : String}
    {entry : Entry} (found : AList.lookup key (db.shard idx) = some entry)
    (amount : Nat) :
    ((db.removeEntry idx key).fetchSub amount).storedSize ≤ db.storedSize := by
  have removed := total_removeEntry (fun _ entry => entry.approxSizeBytes) found
  exact Nat.le_of_add_right_le removed.le

/-- A right counter stays right, and the stored sizes do not grow. -/
structure Sheds (db next : Db hasher) : Prop where
  accounted : db.Accounted → next.Accounted
  storedSize_le : next.storedSize ≤ db.storedSize

namespace Sheds

theorem refl (db : Db hasher) : Sheds db db :=
  ⟨id, Nat.le_refl _⟩

theorem trans {first second third : Db hasher} (earlier : Sheds first second)
    (later : Sheds second third) : Sheds first third where
  accounted := later.accounted ∘ earlier.accounted
  storedSize_le := later.storedSize_le.trans earlier.storedSize_le

theorem removeEntry {db : Db hasher} {idx : Nat} {key : String} {entry : Entry}
    (found : AList.lookup key (db.shard idx) = some entry) :
    Sheds db ((db.removeEntry idx key).fetchSub entry.approxSizeBytes) where
  accounted := fun accounted => accounted.removeEntry found
  storedSize_le := storedSize_removeEntry_le found _

theorem touch {db : Db hasher} {key : String} {entry : Entry}
    (found : db.find key = some entry) (now : Instant) :
    Sheds db (db.replaceEntry key (entry.touch now)) where
  accounted := fun accounted => accounted.touch found now
  storedSize_le := by
    have same : (db.replaceEntry key (entry.touch now)).storedSize =
        db.storedSize :=
      total_replaceEntry _ found rfl
    exact same.le

end Sheds

theorem sheds_get (db : Db hasher) (now : Instant) (key : String) :
    Sheds db (db.get now key).2 := by
  rw [get, getTouch]
  cases found : AList.lookup key (db.shard (db.shardIndex key)) with
  | none => exact Sheds.refl db
  | some entry =>
      cases expired : entry.isExpired now with
      | false =>
          simp only [expired]
          exact Sheds.touch found now
      | true =>
          simp only [expired, getCleanup, found, if_true]
          exact Sheds.removeEntry found

theorem sheds_del (db : Db hasher) (key : String) :
    Sheds db (db.del key).2 := by
  rw [del]
  split
  next entry found => exact Sheds.removeEntry found
  next => exact Sheds.refl db

theorem storedSize_purgeKeys_le (idx : Nat) (progress : Nat × Db hasher)
    (noted : List (String × Nat)) :
    (purgeKeys idx progress noted).2.storedSize ≤ progress.2.storedSize := by
  induction noted generalizing progress with
  | nil => exact Nat.le_refl _
  | cons row noted ih =>
      apply (ih _).trans
      rcases purgeKey_cases idx progress row with
        ⟨entry, found, removed⟩ | ⟨_, kept⟩
      · rw [removed]
        exact storedSize_removeEntry_le found _
      · rw [kept]

theorem sheds_purgeKeys {progress : Nat × Db hasher} {idx : Nat} {now : Instant}
    {noted : List (String × Nat)} (captured : progress.2.Captured now noted) :
    Sheds progress.2 (purgeKeys idx progress noted).2 where
  accounted := fun accounted =>
    PurgeSystem.purgeKeys_accounted accounted captured
  storedSize_le := storedSize_purgeKeys_le idx progress noted

theorem sheds_purgeExpiredSample (db : Db hasher) (now : Instant)
    (samplePerShard : Nat) :
    Sheds db (db.purgeExpiredSample now samplePerShard).2 := by
  suffices visits : ∀ (indices : List Nat) (progress : Nat × Db hasher),
      Sheds progress.2
        (indices.foldl (purgeShard now samplePerShard) progress).2 from
    visits _ (0, db)
  intro indices
  induction indices with
  | nil => exact fun progress => Sheds.refl progress.2
  | cons idx indices ih =>
      intro progress
      have captured := progress.2.captured_keysToRemove idx now samplePerShard
      exact (sheds_purgeKeys captured).trans (ih _)

theorem sheds_of_rounds {db last : Db hasher} {victims : List (String × Entry)}
    (rounds : RemovalLoop.Rounds evictRound db victims last) :
    Sheds db last := by
  induction rounds with
  | refl db => exact Sheds.refl db
  | step taken _ ih =>
      obtain ⟨_, found, rfl, _⟩ := evictRound_cases taken
      exact (Sheds.removeEntry found).trans ih

section Counter

variable {db : Db hasher}

theorem Accounted.usedMemory_eq (accounted : db.Accounted) :
    db.usedMemory.toNat = db.storedSize % 2 ^ 64 := by
  rw [accounted]
  exact UInt64.toNat_ofNat'

theorem accounted_of_usedMemory_eq
    (counted : db.usedMemory.toNat = db.storedSize) : db.Accounted := by
  rw [Accounted, ← counted, UInt64.ofNat_toNat]

/-- Nothing is stored in a store with no rows. -/
theorem storedSize_of_empty (empty : ∀ idx, (db.shard idx).entries = []) :
    db.storedSize = 0 := by
  apply List.sum_eq_zero
  intro size member
  obtain ⟨table, tableMem, rfl⟩ := List.mem_map.mp member
  obtain ⟨idx, bound, rfl⟩ := List.mem_iff_getElem.mp tableMem
  have rows := empty idx
  rw [db.shard_eq_getElem bound] at rows
  rw [Table.total, rows]
  rfl

/-- The eviction loop ends with the counter below the bound. -/
theorem Accounted.ensureMemoryCapacity_lt (accounted : db.Accounted)
    (bounded : 0 < db.maxMemoryBytes) :
    db.ensureMemoryCapacity.usedMemory.toNat < db.maxMemoryBytes := by
  obtain ⟨victims, run⟩ := db.exists_run_ensureMemoryCapacity
  rcases evictRound_eq_none run.ends with roomy | empty
  · rwa [maxMemoryBytes_of_rounds run.rounds] at roomy
  · have stillAccounted := (sheds_of_rounds run.rounds).accounted accounted
    rw [stillAccounted.usedMemory_eq, storedSize_of_empty empty]
    exact bounded

theorem storedSize_setEntry_le (db : Db hasher) (arrangement : Arrangement)
    (key : String) (entry : Entry) :
    (db.setEntry arrangement key entry).storedSize ≤
      db.storedSize + entry.approxSizeBytes := by
  have inserted := db.total_insertEntry
    (fun _ entry => entry.approxSizeBytes) arrangement key entry
  have same : (db.setEntry arrangement key entry).storedSize =
      (db.insertEntry arrangement key entry).storedSize := by
    rw [setEntry]
    split <;> rfl
  rw [same, storedSize, storedSize]
  omega

/-- An insertion keeps the stored sizes within the bound and the new entry, as
long as they fit the counter beforehand. -/
theorem storedSize_set_lt (accounted : db.Accounted)
    (fits : db.storedSize < 2 ^ 64) (bounded : 0 < db.maxMemoryBytes)
    (arrangement : Arrangement) (now : Instant) (key : String) (value : Bytes)
    (expiresAt : Option Instant) :
    (db.set arrangement now key value expiresAt).storedSize <
      db.maxMemoryBytes +
        (Entry.new (asBytes key).length value expiresAt now).approxSizeBytes := by
  obtain ⟨victims, run⟩ := db.exists_run_ensureMemoryCapacity
  have shed := sheds_of_rounds run.rounds
  have roomy := accounted.ensureMemoryCapacity_lt bounded
  rw [(shed.accounted accounted).usedMemory_eq,
    Nat.mod_eq_of_lt (shed.storedSize_le.trans_lt fits)] at roomy
  have written := db.ensureMemoryCapacity.storedSize_setEntry_le arrangement key
    (Entry.new (asBytes key).length value expiresAt now)
  rw [set, if_pos bounded]
  omega

theorem Accounted.set (accounted : db.Accounted) (arrangement : Arrangement)
    (now : Instant) (key : String) (value : Bytes)
    (expiresAt : Option Instant) :
    (db.set arrangement now key value expiresAt).Accounted := by
  apply Accounted.setEntry
  split
  next =>
    obtain ⟨victims, run⟩ := db.exists_run_ensureMemoryCapacity
    exact (sheds_of_rounds run.rounds).accounted accounted
  next => exact accounted

end Counter

end Db

/-- The size of the entry that an operation inserts. -/
def StoreOp.insertedSize : StoreOp → Nat
  | set key value expiresAt =>
      (Entry.new (asBytes key).length value expiresAt 0).approxSizeBytes
  | _ => 0

/-- The largest entry size that a sequence of calls inserts. -/
def largestInserted (calls : List StoreCall) : Nat :=
  (calls.map fun request => request.op.insertedSize).foldr max 0

theorem insertedSize_le_largestInserted {calls : List StoreCall}
    {request : StoreCall} (member : request ∈ calls) :
    request.op.insertedSize ≤ largestInserted calls := by
  induction calls with
  | nil => cases member
  | cons first calls ih =>
      rcases List.mem_cons.mp member with rfl | later
      · exact Nat.le_max_left _ _
      · exact (ih later).trans (Nat.le_max_right _ _)

namespace Db

variable {hasher : String → UInt64}

/-- One call keeps the counter right and the stored sizes within the bound and
the largest entry. -/
theorem storedSize_call_lt {db : Db hasher} {request : StoreCall}
    {largest : Nat} (inserted : request.op.insertedSize ≤ largest)
    (bounded : 0 < db.maxMemoryBytes)
    (word : db.maxMemoryBytes + largest ≤ 2 ^ 64) (accounted : db.Accounted)
    (small : db.storedSize < db.maxMemoryBytes + largest) :
    (db.call request).2.Accounted ∧
      (db.call request).2.storedSize < db.maxMemoryBytes + largest := by
  have shedding : ∀ {next : Db hasher}, Sheds db next → next.Accounted ∧
      next.storedSize < db.maxMemoryBytes + largest :=
    fun shed => ⟨shed.accounted accounted, shed.storedSize_le.trans_lt small⟩
  rw [call]
  cases operation : request.op with
  | get key => exact shedding (db.sheds_get request.now key)
  | set key value expiresAt =>
      rw [operation] at inserted
      have written := storedSize_set_lt accounted (by omega) bounded
        request.arrangement request.now key value expiresAt
      refine ⟨accounted.set request.arrangement request.now key value expiresAt,
        written.trans_le ?_⟩
      exact Nat.add_le_add_left inserted _
  | del key => exact shedding (db.sheds_del key)
  | «exists» key => exact shedding (db.sheds_get request.now key)
  | keys => exact shedding (Sheds.refl db)
  | purgeExpiredSample samplePerShard =>
      exact shedding (db.sheds_purgeExpiredSample request.now samplePerShard)

theorem storedSize_run_lt {calls : List StoreCall} {largest : Nat}
    (inserted : ∀ request ∈ calls, request.op.insertedSize ≤ largest)
    {db : Db hasher} (bounded : 0 < db.maxMemoryBytes)
    (word : db.maxMemoryBytes + largest ≤ 2 ^ 64) (accounted : db.Accounted)
    (small : db.storedSize < db.maxMemoryBytes + largest) :
    (db.run calls).2.Accounted ∧
      (db.run calls).2.storedSize < db.maxMemoryBytes + largest := by
  induction calls generalizing db with
  | nil => exact ⟨accounted, small⟩
  | cons request calls ih =>
      obtain ⟨stillAccounted, stillSmall⟩ := storedSize_call_lt
        (inserted request List.mem_cons_self) bounded word accounted small
      have same := db.maxMemoryBytes_call request
      rw [← same] at bounded word stillSmall ⊢
      exact ih (fun later member =>
        inserted later (List.mem_cons_of_mem request member)) bounded word
        stillAccounted stillSmall

/-- The counter of a run stays below the bound and the largest entry.  A bound
beyond the machine word is no bound on the counter. -/
theorem usedMemory_run_lt {db : Db hasher} (bounded : 0 < db.maxMemoryBytes)
    (counted : db.usedMemory.toNat = db.storedSize) (calls : List StoreCall)
    (small : db.usedMemory.toNat < db.maxMemoryBytes) :
    (db.run calls).2.usedMemory.toNat <
      db.maxMemoryBytes + largestInserted calls := by
  by_cases word : db.maxMemoryBytes + largestInserted calls ≤ 2 ^ 64
  · obtain ⟨accounted, below⟩ := storedSize_run_lt
      (fun request member => insertedSize_le_largestInserted member) bounded word
      (accounted_of_usedMemory_eq counted) (by omega)
    rw [accounted.usedMemory_eq]
    exact (Nat.mod_le _ _).trans_lt below
  · have machine := (db.run calls).2.usedMemory.toNat_lt
    omega

theorem entryCount_of_rounds {db last : Db hasher}
    {victims : List (String × Entry)}
    (rounds : RemovalLoop.Rounds evictRound db victims last) :
    victims.length + last.entryCount = db.entryCount := by
  induction rounds with
  | refl db => exact Nat.zero_add _
  | step taken _ ih =>
      have fewer := entryCount_evictRound taken
      rw [List.length_cons]
      omega

/-- With a memory bound, the eviction loop of a `set` ends, every round removes
exactly one stored entry, nothing is removed while the counter is below the
bound, the loop leaves the counter below the bound, and the `set` leaves it
below the bound and the new entry.  So no run of calls takes the counter to the
bound and the largest entry inserted. -/
theorem eviction_bounds_memory {db : Db hasher}
    (bounded : 0 < db.maxMemoryBytes)
    (counted : db.usedMemory.toNat = db.storedSize) :
    (∃ victims, RemovalLoop.Run evictRound db victims db.ensureMemoryCapacity ∧
      victims.length + db.ensureMemoryCapacity.entryCount = db.entryCount ∧
      (db.usedMemory.toNat < db.maxMemoryBytes →
        victims = [] ∧ db.ensureMemoryCapacity = db)) ∧
    (∀ (before next : Db hasher) key entry,
      before.evictRound = some ((key, entry), next) →
        before.find key = some entry ∧
        next.entryCount + 1 = before.entryCount ∧
        ∀ other, next.find other =
          if other = key then none else before.find other) ∧
    db.ensureMemoryCapacity.usedMemory.toNat < db.maxMemoryBytes ∧
    (∀ (arrangement : Arrangement) (now : Instant) (key : String)
      (value : Bytes) (expiresAt : Option Instant),
      (db.set arrangement now key value expiresAt).usedMemory.toNat <
        db.maxMemoryBytes +
          (Entry.new (asBytes key).length value expiresAt
            now).approxSizeBytes) ∧
    ∀ calls, db.usedMemory.toNat < db.maxMemoryBytes →
      (db.run calls).2.usedMemory.toNat <
        db.maxMemoryBytes + largestInserted calls := by
  have accounted := accounted_of_usedMemory_eq counted
  have fits : db.storedSize < 2 ^ 64 := counted ▸ db.usedMemory.toNat_lt
  refine ⟨?_, ?_, accounted.ensureMemoryCapacity_lt bounded, ?_,
    usedMemory_run_lt bounded counted⟩
  · obtain ⟨victims, run⟩ := db.exists_run_ensureMemoryCapacity
    refine ⟨victims, run, entryCount_of_rounds run.rounds, ?_⟩
    intro roomy
    have idle := evictRound_of_lt roomy
    generalize db.ensureMemoryCapacity = last at run
    cases run.rounds with
    | refl => exact ⟨rfl, rfl⟩
    | step taken _ =>
        rw [idle] at taken
        cases taken
  · intro before next key entry taken
    obtain ⟨_, found, _, _⟩ := evictRound_cases taken
    exact ⟨found, entryCount_evictRound taken, find_evictRound taken⟩
  · intro arrangement now key value expiresAt
    rw [(accounted.set arrangement now key value expiresAt).usedMemory_eq]
    exact (Nat.mod_le _ _).trans_lt
      (storedSize_set_lt accounted fits bounded arrangement now key value
        expiresAt)

theorem eviction_bounds_memory_crowded :
    200 ≤ crowded.usedMemory.toNat ∧
      crowded.ensureMemoryCapacity.usedMemory.toNat < 200 := by
  have bound : crowded.maxMemoryBytes = 200 := by decide +kernel
  refine ⟨by decide +kernel, ?_⟩
  rw [← bound]
  exact (eviction_bounds_memory (by decide +kernel) (by decide +kernel)).2.2.1

end Db

end RustiCache
