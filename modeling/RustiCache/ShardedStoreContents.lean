import RustiCache.ShardedStore
import RustiCache.TimedMaps

/-!
# What a sharded store contains

Seen from outside, a store is a timed map: the entry of a key in the key's own
shard.  Each operation of the store is described here by what it does to that
map, so that later proofs need not look into shards again.
-/

namespace RustiCache

namespace Entry

/-- What of an entry can be observed through the clock. -/
def timed (entry : Entry) : Bytes × Option Instant :=
  (entry.value, entry.expiresAt)

theorem isExpired_eq (entry : Entry) (now : Instant) :
    entry.isExpired now = !TimedMap.liveAt now entry.expiresAt := by
  unfold isExpired
  cases entry.expiresAt with
  | none => rfl
  | some deadline =>
      by_cases passed : deadline ≤ now
      · simp [TimedMap.liveAt, passed]
      · simp [TimedMap.liveAt, passed, Nat.lt_of_not_le passed]

end Entry

namespace Db

variable {hasher : String → UInt64}

theorem shardIndex_lt (db : Db hasher) (key : String) :
    db.shardIndex key < db.shards.length := by
  rw [db.shards_length]
  exact Nat.lt_succ_of_le Nat.and_le_right

theorem shard_eq_getElem (db : Db hasher) {idx : Nat}
    (bound : idx < db.shards.length) : db.shard idx = db.shards[idx] := by
  rw [shard, List.getD, List.getElem?_eq_getElem bound]
  rfl

theorem shard_eq_empty (db : Db hasher) {idx : Nat}
    (beyond : db.shards.length ≤ idx) : db.shard idx = ∅ := by
  rw [shard, List.getD, List.getElem?_eq_none beyond]
  rfl

/-- A key found in a shard is in its own shard. -/
theorem shardIndex_of_lookup {db : Db hasher} {idx : Nat} {key : String}
    {entry : Entry} (found : AList.lookup key (db.shard idx) = some entry) :
    db.shardIndex key = idx :=
  db.placed idx key (AList.lookup_isSome.mp (by
    rw [← shard, found]
    rfl))

section PutShard

variable (db : Db hasher) {idx : Nat} (table : Shard)
  (belongs : ∀ key ∈ table, db.shardIndex key = idx)

theorem shard_putShard_self (bound : idx < db.shards.length) :
    (db.putShard idx table belongs).shard idx = table := by
  rw [shard, putShard, List.getD, List.getElem?_set_self bound]
  rfl

theorem shard_putShard_ne {other : Nat} (differ : idx ≠ other) :
    (db.putShard idx table belongs).shard other = db.shard other := by
  rw [shard, putShard, List.getD, List.getElem?_set_ne differ]
  rfl

end PutShard

/-- The entry of a key. -/
def find (db : Db hasher) (key : String) : Option Entry :=
  AList.lookup key (db.shard (db.shardIndex key))

theorem find_putShard (db : Db hasher) {key : String} {table : Shard}
    (belongs : ∀ other ∈ table, db.shardIndex other = db.shardIndex key)
    {binding : Option Entry}
    (reads : ∀ other, AList.lookup other table =
      if other = key then binding
      else AList.lookup other (db.shard (db.shardIndex key)))
    (other : String) :
    (db.putShard (db.shardIndex key) table belongs).find other =
      if other = key then binding else db.find other := by
  change AList.lookup other ((db.putShard (db.shardIndex key) table
    belongs).shard (db.shardIndex other)) = _
  by_cases sameShard : db.shardIndex key = db.shardIndex other
  · rw [← sameShard, shard_putShard_self _ _ _ (db.shardIndex_lt key), reads,
      find, sameShard]
  · have differ : other ≠ key := by
      intro same
      exact sameShard (by rw [same])
    rw [shard_putShard_ne _ _ _ sameShard, if_neg differ]
    rfl

theorem find_insertEntry (db : Db hasher) (arrangement : Arrangement)
    (key : String) (entry : Entry) (other : String) :
    (db.insertEntry arrangement key entry).find other =
      if other = key then some entry else db.find other :=
  db.find_putShard _
    (fun other => Table.lookup_insert arrangement key other entry _) other

theorem find_removeEntry (db : Db hasher) (key other : String) :
    (db.removeEntry (db.shardIndex key) key).find other =
      if other = key then none else db.find other :=
  db.find_putShard _ (fun other => Table.lookup_erase key other _) other

theorem find_replaceEntry {db : Db hasher} {key : String} {old : Entry}
    (found : db.find key = some old) (entry : Entry) (other : String) :
    (db.replaceEntry key entry).find other =
      if other = key then some entry else db.find other :=
  db.find_putShard _ (fun other => Table.lookup_replace other entry found) other

/-- The store as a timed map. -/
def contents (db : Db hasher) : TimedMap String Bytes Instant :=
  fun key => (db.find key).map Entry.timed

@[simp]
theorem contents_fetchSub (db : Db hasher) (amount : Nat) :
    (db.fetchSub amount).contents = db.contents :=
  rfl

@[simp]
theorem contents_fetchAdd (db : Db hasher) (amount : Nat) :
    (db.fetchAdd amount).contents = db.contents :=
  rfl

theorem contents_of_find {db next : Db hasher} {key : String}
    {binding : Option Entry}
    (reads : ∀ other, next.find other =
      if other = key then binding else db.find other) :
    next.contents =
      Function.update db.contents key (binding.map Entry.timed) := by
  funext other
  rw [contents, reads]
  by_cases same : other = key
  · rw [if_pos same, same, Function.update_self]
  · rw [if_neg same, Function.update_of_ne same, contents]

theorem contents_removeEntry (db : Db hasher) (key : String) :
    (db.removeEntry (db.shardIndex key) key).contents =
      db.contents.delete key :=
  contents_of_find (db.find_removeEntry key)

theorem contents_removeEntry_of_lookup {db : Db hasher} {idx : Nat}
    {key : String} {entry : Entry}
    (found : AList.lookup key (db.shard idx) = some entry) :
    (db.removeEntry idx key).contents = db.contents.delete key := by
  rw [← shardIndex_of_lookup found]
  exact db.contents_removeEntry key

theorem contents_touch {db : Db hasher} {key : String} {entry : Entry}
    (found : db.find key = some entry) (now : Instant) :
    (db.replaceEntry key (entry.touch now)).contents = db.contents := by
  rw [contents_of_find (find_replaceEntry found (entry.touch now))]
  apply Function.update_eq_self_iff.mpr
  rw [contents, found]
  rfl

theorem contents_of_lookup {db : Db hasher} {idx : Nat} {key : String}
    {entry : Entry} (found : AList.lookup key (db.shard idx) = some entry) :
    db.contents key = some entry.timed := by
  rw [← shardIndex_of_lookup found] at found
  rw [contents, find, found]
  rfl

theorem expiredBy_contents {db : Db hasher} {idx : Nat} {key : String}
    {entry : Entry} (found : AList.lookup key (db.shard idx) = some entry)
    {now : Instant} (expired : entry.isExpired now) :
    TimedMap.ExpiredBy now (db.contents key) := by
  rw [Entry.isExpired_eq, Bool.not_eq_true'] at expired
  obtain ⟨deadline, expiresAt, passed⟩ := TimedMap.liveAt_eq_false_iff.mp expired
  refine ⟨entry.value, deadline, ?_, passed⟩
  rw [contents_of_lookup found, Entry.timed, expiresAt]

theorem contents_withConfig (hasher : String → UInt64)
    (shardCount maxMemoryBytes : Nat) :
    (withConfig hasher shardCount maxMemoryBytes).contents =
      TimedMap.empty := by
  funext key
  rw [contents, find, shard]
  have index := (withConfig hasher shardCount maxMemoryBytes).shardIndex_lt key
  rw [List.getD, List.getElem?_eq_getElem index]
  simp [withConfig, TimedMap.empty]

section Get

variable (db : Db hasher) (now : Instant) (key : String)

/-- `get` answers like the timed map. -/
theorem get_answer : (db.get now key).1 = db.contents.get now key := by
  rw [get, getTouch, TimedMap.get, contents, find]
  cases AList.lookup key (db.shard (db.shardIndex key)) with
  | none => rfl
  | some entry =>
      simp only [Option.map_some, Entry.timed, Entry.isExpired_eq]
      cases TimedMap.liveAt now entry.expiresAt <;> rfl

theorem contents_getCleanup :
    TimedMap.Forgets now db.contents (db.getCleanup now key).contents := by
  rw [getCleanup]
  split
  next entry found =>
    split
    next expired =>
      rw [contents_fetchSub, contents_removeEntry]
      exact TimedMap.Forgets.of_delete (expiredBy_contents found expired)
    next => exact TimedMap.Forgets.refl now db.contents
  next => exact TimedMap.Forgets.refl now db.contents

theorem contents_getTouch :
    (db.getTouch now key).2.contents = db.contents := by
  rw [getTouch]
  split
  next entry found =>
    split
    next => rfl
    next => exact contents_touch found now
  next => rfl

/-- `get` removes nothing but an expired binding. -/
theorem contents_get :
    TimedMap.Forgets now db.contents (db.get now key).2.contents := by
  have touched := db.contents_getTouch now key
  rw [get]
  split
  next answer next touch =>
    rw [touch] at touched
    rw [touched]
    exact TimedMap.Forgets.refl now db.contents
  next next touch =>
    rw [touch] at touched
    rw [← touched]
    exact next.contents_getCleanup now key

end Get

theorem contents_del (db : Db hasher) (key : String) :
    (db.del key).2.contents = db.contents.delete key := by
  rw [del]
  split
  next entry found => rw [contents_fetchSub, contents_removeEntry]
  next missing =>
    apply (Function.update_eq_self_iff.mpr _).symm
    rw [contents, find, missing]
    rfl

/-- `del` reports whether the key was bound. -/
theorem del_answer (db : Db hasher) (key : String) :
    (db.del key).1 = (db.contents key).isSome := by
  rw [del, contents, find]
  cases AList.lookup key (db.shard (db.shardIndex key)) <;> rfl

/-- A round of eviction is a removal with its counter update. -/
theorem evictOne_cases {db next : Db hasher}
    (evicted : db.evictOne = some next) :
    ∃ idx key removed, AList.lookup key (db.shard idx) = some removed ∧
      next = (db.removeEntry idx key).fetchSub removed.approxSizeBytes := by
  rw [evictOne] at evicted
  split at evicted
  next =>
    split at evicted
    next idx key _ _ =>
      split at evicted
      next removed found =>
        cases evicted
        exact ⟨idx, key, removed, found, rfl⟩
      next => cases evicted
    next => cases evicted
  next => cases evicted

theorem contents_evictOne {db next : Db hasher}
    (evicted : db.evictOne = some next) :
    TimedMap.Within db.contents next.contents := by
  obtain ⟨idx, key, removed, found, rfl⟩ := evictOne_cases evicted
  rw [contents_fetchSub, contents_removeEntry_of_lookup found]
  exact TimedMap.Within.of_delete db.contents key

theorem contents_evictRounds (rounds : Nat) (db : Db hasher) :
    TimedMap.Within db.contents (evictRounds rounds db).contents := by
  induction rounds generalizing db with
  | zero => exact TimedMap.Within.refl db.contents
  | succ rounds ih =>
      rw [evictRounds]
      split
      next next evicted => exact (contents_evictOne evicted).trans (ih next)
      next => exact TimedMap.Within.refl db.contents

theorem find_setEntry (db : Db hasher) (arrangement : Arrangement)
    (key : String) (entry : Entry) (other : String) :
    (db.setEntry arrangement key entry).find other =
      if other = key then some entry else db.find other := by
  rw [← db.find_insertEntry arrangement key entry, setEntry]
  cases AList.lookup key (db.shard (db.shardIndex key)) <;> rfl

theorem contents_setEntry (db : Db hasher) (arrangement : Arrangement)
    (key : String) (entry : Entry) :
    (db.setEntry arrangement key entry).contents =
      db.contents.write key entry.value entry.expiresAt :=
  contents_of_find (db.find_setEntry arrangement key entry)

/-- `set` writes one binding, after evictions if the store is bounded. -/
theorem contents_set (db : Db hasher) (arrangement : Arrangement)
    (now : Instant) (key : String) (value : Bytes)
    (expiresAt : Option Instant) :
    ∃ kept, TimedMap.Within db.contents kept ∧
      (db.maxMemoryBytes = 0 → kept = db.contents) ∧
      (db.set arrangement now key value expiresAt).contents =
        kept.write key value expiresAt := by
  rw [set]
  simp only [contents_setEntry, Entry.new]
  split
  next bounded =>
    exact ⟨_, db.contents_evictRounds db.entryCount,
      fun unbounded => absurd bounded (by omega), rfl⟩
  next => exact ⟨_, TimedMap.Within.refl db.contents, fun _ => rfl, rfl⟩

end Db

end RustiCache
