import RustiCache.ShardedStoreContents

/-!
# Totals over a sharded store

The sum of a weight over all entries of a store changes by the weights of the
entries that an operation adds and removes.  With weight one this bounds the
eviction loop, which therefore runs until its own exit condition.  With the
entries' sizes it gives the figure that the memory counter follows.
-/

namespace RustiCache

theorem sum_map_set {α : Type} (weight : α → Nat) {items : List α} {idx : Nat}
    {old : α} (found : items[idx]? = some old) (item : α) :
    ((items.set idx item).map weight).sum + weight old =
      (items.map weight).sum + weight item := by
  induction items generalizing idx with
  | nil => cases found
  | cons head tail ih =>
      cases idx with
      | zero =>
          cases found
          simp only [List.set_cons_zero, List.map_cons, List.sum_cons]
          omega
      | succ idx =>
          have rest := ih found
          simp only [List.set_cons_succ, List.map_cons, List.sum_cons]
          omega

namespace Db

variable {hasher : String → UInt64}

theorem idx_lt_of_lookup {db : Db hasher} {idx : Nat} {key : String}
    {entry : Entry} (found : AList.lookup key (db.shard idx) = some entry) :
    idx < db.shards.length := by
  rw [← shardIndex_of_lookup found]
  exact db.shardIndex_lt key

theorem total_putShard (weight : String → Entry → Nat) (db : Db hasher)
    {idx : Nat} (bound : idx < db.shards.length) (table : Shard)
    (belongs : ∀ key ∈ table, db.shardIndex key = idx) :
    (db.putShard idx table belongs).total weight +
        Table.total weight (db.shard idx) =
      db.total weight + Table.total weight table := by
  apply sum_map_set
  rw [shard, List.getD, List.getElem?_eq_getElem bound]
  rfl

/-- Removing an entry takes its weight off the total. -/
theorem total_removeEntry (weight : String → Entry → Nat) {db : Db hasher}
    {idx : Nat} {key : String} {entry : Entry}
    (found : AList.lookup key (db.shard idx) = some entry) :
    (db.removeEntry idx key).total weight + weight key entry =
      db.total weight := by
  have change := db.total_putShard weight (idx_lt_of_lookup found)
    (AList.erase key (db.shard idx)) (db.belongs_erase idx key)
  have erased := Table.total_erase weight found
  rw [removeEntry]
  omega

theorem total_replaceEntry (weight : String → Entry → Nat) {db : Db hasher}
    {key : String} {old entry : Entry} (found : db.find key = some old)
    (sameWeight : weight key entry = weight key old) :
    (db.replaceEntry key entry).total weight = db.total weight := by
  have change := db.total_putShard weight (db.shardIndex_lt key)
    (AList.replace key entry (db.shard (db.shardIndex key)))
    (db.belongs_replace key entry)
  rw [Table.total_replace weight found sameWeight] at change
  rw [replaceEntry]
  omega

/-- Inserting an entry trades the weight of the old one for its own. -/
theorem total_insertEntry (weight : String → Entry → Nat) (db : Db hasher)
    (arrangement : Arrangement) (key : String) (entry : Entry) :
    (db.insertEntry arrangement key entry).total weight +
        ((db.find key).elim 0 (weight key)) =
      db.total weight + weight key entry := by
  have change := db.total_putShard weight (db.shardIndex_lt key)
    (Table.insert arrangement key entry (db.shard (db.shardIndex key)))
    (db.belongs_insert arrangement key entry)
  rw [Table.total_insert] at change
  rw [insertEntry, find]
  cases found : AList.lookup key (db.shard (db.shardIndex key)) with
  | none =>
      rw [Table.erase_of_lookup_none found] at change
      simp only [Option.elim_none]
      omega
  | some old =>
      have erased := Table.total_erase weight found
      simp only [Option.elim_some]
      omega

@[simp]
theorem total_fetchSub (weight : String → Entry → Nat) (db : Db hasher)
    (amount : Nat) : (db.fetchSub amount).total weight = db.total weight :=
  rfl

@[simp]
theorem total_fetchAdd (weight : String → Entry → Nat) (db : Db hasher)
    (amount : Nat) : (db.fetchAdd amount).total weight = db.total weight :=
  rfl

theorem entryCount_of_evictOne {db next : Db hasher}
    (evicted : db.evictOne = some next) :
    next.entryCount + 1 = db.entryCount := by
  obtain ⟨idx, key, removed, found, rfl⟩ := evictOne_cases evicted
  exact total_removeEntry (fun _ _ => 1) found

theorem evictRounds_of_le {rounds : Nat} {db : Db hasher}
    (enough : db.entryCount ≤ rounds) :
    evictRounds rounds db = db.ensureMemoryCapacity := by
  rw [ensureMemoryCapacity]
  induction rounds generalizing db with
  | zero => rw [Nat.le_zero.mp enough]
  | succ rounds ih =>
      cases count : db.entryCount with
      | zero =>
          rw [evictRounds, evictRounds]
          split
          next next evicted =>
            have fewer := entryCount_of_evictOne evicted
            omega
          next => rfl
      | succ others =>
          rw [evictRounds, evictRounds]
          split
          next next evicted =>
            have fewer := entryCount_of_evictOne evicted
            have remaining : next.entryCount = others := by omega
            rw [ih (by omega), remaining]
          next => rfl

/-- The eviction loop ends only when a round has nothing to do. -/
theorem ensureMemoryCapacity_eq (db : Db hasher) :
    db.ensureMemoryCapacity =
      match db.evictOne with
      | some next => next.ensureMemoryCapacity
      | none => db := by
  rw [← evictRounds_of_le (Nat.le_succ db.entryCount), evictRounds]
  cases evicted : db.evictOne with
  | none => rfl
  | some next =>
      have fewer := entryCount_of_evictOne evicted
      exact evictRounds_of_le (by omega)

/-- The sum of the sizes of all stored entries. -/
def storedSize (db : Db hasher) : Nat :=
  db.total fun _ entry => entry.approxSizeBytes

/-- The memory counter shows the stored sizes, as far as a machine word can. -/
def Accounted (db : Db hasher) : Prop :=
  db.usedMemory = UInt64.ofNat db.storedSize

theorem accounted_withConfig (hasher : String → UInt64)
    (shardCount maxMemoryBytes : Nat) :
    (withConfig hasher shardCount maxMemoryBytes).Accounted := by
  have empty : (withConfig hasher shardCount maxMemoryBytes).storedSize = 0 := by
    simp [storedSize, total, withConfig]
  rw [Accounted, empty]
  rfl

theorem sub_ofNat_of_add_eq {rest amount whole : Nat}
    (sum : rest + amount = whole) :
    UInt64.ofNat whole - UInt64.ofNat amount = UInt64.ofNat rest := by
  rw [← sum, UInt64.ofNat_add, UInt64.add_sub_cancel]

namespace Accounted

variable {db : Db hasher}

/-- Removing an entry and subtracting its size. -/
theorem removeEntry (accounted : db.Accounted) {idx : Nat} {key : String}
    {entry : Entry} (found : AList.lookup key (db.shard idx) = some entry) :
    ((db.removeEntry idx key).fetchSub entry.approxSizeBytes).Accounted := by
  have removed := total_removeEntry (fun _ entry => entry.approxSizeBytes) found
  have counter := sub_ofNat_of_add_eq removed
  change db.usedMemory - UInt64.ofNat entry.approxSizeBytes = _
  rw [accounted]
  exact counter

theorem touch (accounted : db.Accounted) {key : String} {entry : Entry}
    (found : db.find key = some entry) (now : Instant) :
    (db.replaceEntry key (entry.touch now)).Accounted := by
  have same : (db.replaceEntry key (entry.touch now)).storedSize =
      db.storedSize :=
    total_replaceEntry _ found rfl
  rw [Accounted, same]
  exact accounted

theorem setEntry (accounted : db.Accounted) (arrangement : Arrangement)
    (key : String) (entry : Entry) :
    (db.setEntry arrangement key entry).Accounted := by
  have inserted := db.total_insertEntry
    (fun _ entry => entry.approxSizeBytes) arrangement key entry
  rw [Db.setEntry]
  cases found : AList.lookup key (db.shard (db.shardIndex key)) with
  | none =>
      rw [find, found, Option.elim_none, Nat.add_zero] at inserted
      change db.usedMemory + UInt64.ofNat entry.approxSizeBytes =
        UInt64.ofNat ((db.insertEntry arrangement key entry).total _)
      rw [inserted, UInt64.ofNat_add, accounted]
      rfl
  | some old =>
      rw [find, found, Option.elim_some] at inserted
      have counter := sub_ofNat_of_add_eq inserted
      change db.usedMemory - UInt64.ofNat old.approxSizeBytes +
        UInt64.ofNat entry.approxSizeBytes =
        UInt64.ofNat ((db.insertEntry arrangement key entry).total _)
      rw [← counter, UInt64.ofNat_add, accounted, storedSize]
      grind

theorem getTouch (accounted : db.Accounted) (now : Instant) (key : String) :
    (db.getTouch now key).2.Accounted := by
  rw [Db.getTouch]
  split
  next entry found =>
    split
    next => exact accounted
    next => exact accounted.touch found now
  next => exact accounted

theorem getCleanup (accounted : db.Accounted) (now : Instant) (key : String) :
    (db.getCleanup now key).Accounted := by
  rw [Db.getCleanup]
  split
  next entry found =>
    split
    next => exact accounted.removeEntry found
    next => exact accounted
  next => exact accounted

theorem del (accounted : db.Accounted) (key : String) :
    (db.del key).2.Accounted := by
  rw [Db.del]
  split
  next entry found => exact accounted.removeEntry found
  next => exact accounted

end Accounted

end Db

end RustiCache
