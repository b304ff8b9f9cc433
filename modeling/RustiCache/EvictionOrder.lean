import RustiCache.EvictionRounds

/-!
# The order of eviction

Where no shard holds more than a scan looks at, every round removes an entry of
least last access in the whole store.  The entries that one insertion evicts are
then a prefix of the store in the order of last access, and a shorter prefix
would have left the memory at its bound.
-/

namespace RustiCache

namespace Db

variable {hasher : String → UInt64}

/-- No shard holds more entries than a scan looks at. -/
def FullySampled (db : Db hasher) : Prop :=
  ∀ idx, (db.shard idx).entries.length ≤ 5

theorem fullySampled_iff (db : Db hasher) :
    db.FullySampled ↔ ∀ table ∈ db.shards, table.entries.length ≤ 5 := by
  constructor
  · intro sampled table member
    obtain ⟨idx, bound, rfl⟩ := List.mem_iff_getElem.mp member
    rw [← db.shard_eq_getElem bound]
    exact sampled idx
  · intro sampled idx
    by_cases bound : idx < db.shards.length
    · rw [db.shard_eq_getElem bound]
      exact sampled _ (List.getElem_mem bound)
    · rw [db.shard_eq_empty (Nat.le_of_not_lt bound)]
      exact Nat.zero_le 5

instance (db : Db hasher) : Decidable db.FullySampled :=
  decidable_of_iff _ db.fullySampled_iff.symm

theorem FullySampled.removeEntry {db : Db hasher} (sampled : db.FullySampled)
    (key : String) (amount : Nat) :
    ((db.removeEntry (db.shardIndex key) key).fetchSub amount).FullySampled := by
  intro idx
  change ((db.removeEntry (db.shardIndex key) key).shard idx).entries.length ≤ 5
  rw [Db.removeEntry]
  by_cases same : db.shardIndex key = idx
  · subst same
    rw [shard_putShard_self _ _ _ (db.shardIndex_lt key)]
    exact (List.kerase_sublist key _).length_le.trans (sampled _)
  · rw [shard_putShard_ne _ _ _ same]
    exact sampled idx

theorem takesLeast_evictRound :
    RemovalLoop.TakesLeast (@evictRound hasher) stored
      (fun victim => victim.2.lastAccessed) FullySampled := by
  rintro db ⟨key, entry⟩ next sampled taken
  obtain ⟨_, _, rfl, least⟩ := evictRound_cases taken
  refine ⟨sampled.removeEntry key _, ?_⟩
  rintro ⟨other, kept⟩ held
  apply least (db.shardIndex other) ⟨other, kept⟩
  rw [List.take_of_length_le (sampled _)]
  exact AList.mem_lookup_iff.mp held

/-- The eviction that comes before an insertion. -/
def makeRoom (db : Db hasher) : Db hasher :=
  if 0 < db.maxMemoryBytes then db.ensureMemoryCapacity else db

theorem set_eq (db : Db hasher) (arrangement : Arrangement) (now : Instant)
    (key : String) (value : Bytes) (expiresAt : Option Instant) :
    db.set arrangement now key value expiresAt =
      db.makeRoom.setEntry arrangement key
        (Entry.new (asBytes key).length value expiresAt now) :=
  rfl

/-- The victims are the least recently used entries of a store, in the order of
their last access, and fewer of them would not have made room. -/
structure LruPrefix (db kept : Db hasher) (victims : List (String × Entry)) :
    Prop where
  nodup : victims.Nodup
  mem_iff : ∀ key entry, (key, entry) ∈ victims ↔
    db.find key = some entry ∧ kept.find key ≠ some entry
  find_kept : ∀ key entry, kept.find key = some entry ↔
    db.find key = some entry ∧ (key, entry) ∉ victims
  sorted : victims.Pairwise fun first second =>
    first.2.lastAccessed ≤ second.2.lastAccessed
  before_kept : ∀ victim ∈ victims, ∀ key entry,
    kept.find key = some entry → victim.2.lastAccessed ≤ entry.lastAccessed
  counter : kept.usedMemory = db.usedMemory - UInt64.ofNat (totalSize victims)
  needed : ∀ count < victims.length, db.maxMemoryBytes ≤
    (db.usedMemory - UInt64.ofNat (totalSize (victims.take count))).toNat
  enough : 0 < db.maxMemoryBytes →
    kept.usedMemory.toNat < db.maxMemoryBytes ∨ ∀ key, kept.find key = none

theorem lruPrefix_of_run {db last : Db hasher} {victims : List (String × Entry)}
    (run : RemovalLoop.Run evictRound db victims last)
    (sampled : db.FullySampled) : LruPrefix db last victims where
  nodup := run.rounds.nodup takesOne_evictRound
  mem_iff := fun key entry =>
    run.rounds.mem_iff takesOne_evictRound (key, entry)
  find_kept := fun key entry =>
    run.rounds.mem_stored_iff takesOne_evictRound (key, entry)
  sorted := run.rounds.pairwise_rank takesOne_evictRound takesLeast_evictRound
    sampled
  before_kept := by
    intro victim member key entry kept
    have held : (key, entry) ∈ last.stored := kept
    exact run.rounds.rank_le_of_kept takesOne_evictRound takesLeast_evictRound
      sampled member held
  counter := usedMemory_of_rounds run.rounds
  needed := by
    intro count bound
    obtain ⟨middle, rounds, further⟩ := run.rounds.exists_before bound
    rw [← usedMemory_of_rounds rounds, ← maxMemoryBytes_of_rounds rounds]
    by_contra roomy
    exact further (evictRound_of_lt (Nat.lt_of_not_le roomy))
  enough := by
    intro _
    rw [← maxMemoryBytes_of_rounds run.rounds]
    rcases evictRound_eq_none run.ends with roomy | empty
    · exact Or.inl roomy
    · right
      intro key
      rw [find]
      cases found : AList.lookup key (last.shard (last.shardIndex key)) with
      | none => rfl
      | some entry =>
          have member := AList.mem_lookup_iff.mp found
          rw [empty] at member
          cases member

/-- Without a bound nothing is evicted. -/
theorem lruPrefix_nil {db : Db hasher} (unbounded : ¬0 < db.maxMemoryBytes) :
    LruPrefix db db [] where
  nodup := List.nodup_nil
  mem_iff := by simp
  find_kept := by simp
  sorted := List.Pairwise.nil
  before_kept := by simp
  counter := by simp [totalSize]
  needed := by simp
  enough := fun bounded => absurd bounded unbounded

/-- Every round of the eviction loop removes one entry, no later accessed than
any sampled one; and where no shard holds more than the sample, what a `set`
evicts is a shortest prefix of the entries in the order of last access. -/
theorem eviction_least_recently_used (db : Db hasher) :
    (∀ (next : Db hasher), db.evictOne = some next →
      ∃ key entry, db.find key = some entry ∧
        (∀ other, next.find other =
          if other = key then none else db.find other) ∧
        ∀ idx, ∀ row ∈ (db.shard idx).entries.take 5,
          entry.lastAccessed ≤ row.2.lastAccessed) ∧
      (db.FullySampled →
        ∀ (arrangement : Arrangement) (now : Instant) (key : String)
          (value : Bytes) (expiresAt : Option Instant),
          db.set arrangement now key value expiresAt =
            db.makeRoom.setEntry arrangement key
              (Entry.new (asBytes key).length value expiresAt now) ∧
          ∃ victims, LruPrefix db db.makeRoom victims) := by
  constructor
  · intro next evicted
    rw [evictOne_eq, Option.map_eq_some_iff] at evicted
    obtain ⟨⟨⟨key, entry⟩, _⟩, taken, rfl⟩ := evicted
    obtain ⟨_, found, _, least⟩ := evictRound_cases taken
    exact ⟨key, entry, found, find_evictRound taken, least⟩
  · intro sampled arrangement now key value expiresAt
    refine ⟨db.set_eq arrangement now key value expiresAt, ?_⟩
    unfold makeRoom
    split
    next =>
      obtain ⟨victims, run⟩ := db.exists_run_ensureMemoryCapacity
      exact ⟨victims, lruPrefix_of_run run sampled⟩
    next unbounded => exact ⟨[], lruPrefix_nil unbounded⟩

theorem eviction_least_recently_used_crowded :
    crowded.FullySampled ∧
      ∃ victims, LruPrefix crowded crowded.makeRoom victims := by
  have sampled : crowded.FullySampled := by decide +kernel
  exact ⟨sampled,
    ((eviction_least_recently_used crowded).2 sampled .front 40 "d" [] none).2⟩

end Db

end RustiCache
