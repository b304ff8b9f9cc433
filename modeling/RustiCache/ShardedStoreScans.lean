import RustiCache.ShardedStoreContents
import Mathlib.Data.List.Nodup

/-!
# Operations that scan all shards

Listing the keys visits every shard once and reports the live ones.  Purging
visits every shard twice: a scan notes expired keys with their sizes, and a
removal then takes the noted keys out.  What the removal relies on is that the
notes still describe the shard.
-/

namespace RustiCache

namespace Db

variable {hasher : String → UInt64}

/-- The keys of one shard that `keys` reports. -/
def liveKeys (now : Instant) (shard : Shard) : List String :=
  shard.entries.filterMap fun row =>
    if row.2.expiresAt.all (now < ·) then some row.1 else none

theorem mem_liveKeys {now : Instant} {shard : Shard} {key : String} :
    key ∈ liveKeys now shard ↔
      ∃ entry, AList.lookup key shard = some entry ∧
        TimedMap.liveAt now entry.expiresAt := by
  rw [liveKeys, List.mem_filterMap]
  constructor
  · rintro ⟨⟨stored, entry⟩, member, reported⟩
    split at reported
    next live =>
      cases reported
      exact ⟨entry, AList.mem_lookup_iff.mpr member, live⟩
    next => cases reported
  · rintro ⟨entry, found, live⟩
    exact ⟨⟨key, entry⟩, AList.mem_lookup_iff.mp found, if_pos live⟩

theorem filterMap_sublist_keys (accept : (Sigma fun _ : String => Entry) → Bool)
    (rows : List (Sigma fun _ : String => Entry)) :
    (rows.filterMap fun row => if accept row then some row.1 else none).Sublist
      rows.keys := by
  induction rows with
  | nil => exact List.Sublist.slnil
  | cons row rows ih =>
      rw [List.filterMap_cons]
      cases accept row with
      | false => exact ih.cons row.1
      | true => exact ih.cons_cons row.1

theorem nodup_liveKeys (now : Instant) (shard : Shard) :
    (liveKeys now shard).Nodup :=
  (filterMap_sublist_keys _ shard.entries).nodup (AList.keys_nodup shard)

/-- `keys` lists exactly the keys with a live binding. -/
theorem mem_keys_iff (db : Db hasher) (now : Instant) (key : String) :
    key ∈ db.keys now ↔ (db.contents.get now key).isSome := by
  have member : key ∈ db.keys now ↔
      ∃ entry, db.find key = some entry ∧
        TimedMap.liveAt now entry.expiresAt := by
    rw [keys, List.mem_flatMap]
    constructor
    · rintro ⟨table, tableMem, reported⟩
      obtain ⟨entry, found, live⟩ := mem_liveKeys.mp reported
      obtain ⟨idx, bound, rfl⟩ := List.mem_iff_getElem.mp tableMem
      rw [← db.shard_eq_getElem bound] at found
      refine ⟨entry, ?_, live⟩
      rw [find, shardIndex_of_lookup found, found]
    · rintro ⟨entry, found, live⟩
      have bound := db.shardIndex_lt key
      rw [find, db.shard_eq_getElem bound] at found
      exact ⟨_, List.getElem_mem bound, mem_liveKeys.mpr ⟨entry, found, live⟩⟩
  rw [member, TimedMap.get, contents]
  cases db.find key with
  | none => simp
  | some entry => simp [Entry.timed]

/-- `keys` lists no key twice. -/
theorem nodup_keys (db : Db hasher) (now : Instant) : (db.keys now).Nodup := by
  rw [keys, List.nodup_flatMap]
  refine ⟨fun table _ => nodup_liveKeys now table, ?_⟩
  rw [List.pairwise_iff_getElem]
  intro first second firstBound secondBound order
  have home : ∀ {idx : Nat} (bound : idx < db.shards.length) {key : String},
      key ∈ liveKeys now db.shards[idx] → db.shardIndex key = idx := by
    intro idx bound key reported
    obtain ⟨entry, found, _⟩ := mem_liveKeys.mp reported
    rw [← db.shard_eq_getElem bound] at found
    exact shardIndex_of_lookup found
  intro key inFirst inSecond
  have sameIdx : first = second :=
    (home firstBound inFirst).symm.trans (home secondBound inSecond)
  omega

/-- Every entry of the later store stands for an entry of the earlier one, with
the same deadline and size. -/
def Shrinks (before after : Db hasher) : Prop :=
  ∀ key entry, after.find key = some entry →
    ∃ origin, before.find key = some origin ∧
      origin.expiresAt = entry.expiresAt ∧
      origin.approxSizeBytes = entry.approxSizeBytes

theorem Shrinks.refl (db : Db hasher) : Shrinks db db :=
  fun _ entry found => ⟨entry, found, rfl, rfl⟩

theorem Shrinks.trans {first second third : Db hasher}
    (earlier : Shrinks first second) (later : Shrinks second third) :
    Shrinks first third := by
  intro key entry found
  obtain ⟨middle, middleFound, deadline, size⟩ := later key entry found
  obtain ⟨origin, originFound, originDeadline, originSize⟩ :=
    earlier key middle middleFound
  exact ⟨origin, originFound, originDeadline.trans deadline,
    originSize.trans size⟩

theorem find_of_lookup {db : Db hasher} {idx : Nat} {key : String}
    {entry : Entry} (found : AList.lookup key (db.shard idx) = some entry) :
    db.find key = some entry := by
  rw [find, shardIndex_of_lookup found, found]

theorem shrinks_removeEntry {db : Db hasher} {idx : Nat} {key : String}
    {entry : Entry} (found : AList.lookup key (db.shard idx) = some entry)
    (amount : Nat) :
    Shrinks db ((db.removeEntry idx key).fetchSub amount) := by
  intro other kept keptFound
  rw [← shardIndex_of_lookup found] at keptFound
  change (db.removeEntry (db.shardIndex key) key).find other = _ at keptFound
  rw [find_removeEntry] at keptFound
  split at keptFound
  next => cases keptFound
  next => exact ⟨kept, keptFound, rfl, rfl⟩

theorem shrinks_touch {db : Db hasher} {key : String} {entry : Entry}
    (found : db.find key = some entry) (now : Instant) :
    Shrinks db (db.replaceEntry key (entry.touch now)) := by
  intro other kept keptFound
  rw [find_replaceEntry found] at keptFound
  split at keptFound
  next same =>
    cases keptFound
    exact ⟨entry, by rw [same, found], rfl, rfl⟩
  next => exact ⟨kept, keptFound, rfl, rfl⟩

theorem isExpired_iff_any (entry : Entry) (now : Instant) :
    entry.isExpired now = entry.expiresAt.any (· ≤ now) := by
  unfold Entry.isExpired
  cases entry.expiresAt <;> rfl

/-- The notes of a scan at `now` still describe the store: what is stored under
a noted key has expired and has the noted size. -/
def Captured (db : Db hasher) (now : Instant) (scanned : List (String × Nat)) :
    Prop :=
  ∀ row ∈ scanned, ∀ entry, db.find row.1 = some entry →
    entry.isExpired now ∧ entry.approxSizeBytes = row.2

theorem captured_keysToRemove (db : Db hasher) (idx : Nat) (now : Instant)
    (samplePerShard : Nat) :
    db.Captured now (keysToRemove (db.shard idx) now samplePerShard) := by
  intro row noted entry found
  obtain ⟨⟨key, scanned⟩, sampled, noting⟩ := List.mem_filterMap.mp noted
  split at noting
  next expired =>
    cases noting
    have stored : AList.lookup key (db.shard idx) = some scanned :=
      AList.mem_lookup_iff.mpr (List.mem_of_mem_take sampled)
    rw [find_of_lookup stored] at found
    cases found
    exact ⟨by rwa [isExpired_iff_any], rfl⟩
  next => cases noting

/-- Losing entries leaves the notes valid. -/
theorem Captured.of_shrinks {before after : Db hasher} {now : Instant}
    {scanned : List (String × Nat)} (captured : before.Captured now scanned)
    (shrinks : Shrinks before after) : after.Captured now scanned := by
  intro row noted entry found
  obtain ⟨origin, originFound, deadline, size⟩ := shrinks row.1 entry found
  obtain ⟨expired, sameSize⟩ := captured row noted origin originFound
  rw [isExpired_iff_any, deadline, ← isExpired_iff_any] at expired
  exact ⟨expired, size.symm.trans sameSize⟩

theorem purgeKey_cases (idx : Nat) (progress : Nat × Db hasher)
    (scanned : String × Nat) :
    (∃ entry, AList.lookup scanned.1 (progress.2.shard idx) = some entry ∧
      purgeKey idx progress scanned =
        (progress.1 + 1,
          (progress.2.removeEntry idx scanned.1).fetchSub scanned.2)) ∨
    (AList.lookup scanned.1 (progress.2.shard idx) = none ∧
      purgeKey idx progress scanned = progress) := by
  rw [purgeKey]
  cases found : AList.lookup scanned.1 (progress.2.shard idx) with
  | none => exact Or.inr ⟨rfl, rfl⟩
  | some entry => exact Or.inl ⟨entry, rfl, rfl⟩

theorem shrinks_purgeKey (idx : Nat) (progress : Nat × Db hasher)
    (row : String × Nat) :
    Shrinks progress.2 (purgeKey idx progress row).2 := by
  rcases purgeKey_cases idx progress row with ⟨entry, found, removed⟩ | ⟨_, kept⟩
  · rw [removed]
    exact shrinks_removeEntry found row.2
  · rw [kept]
    exact Shrinks.refl progress.2

theorem shrinks_purgeKeys (idx : Nat) (progress : Nat × Db hasher)
    (scanned : List (String × Nat)) :
    Shrinks progress.2 (purgeKeys idx progress scanned).2 := by
  induction scanned generalizing progress with
  | nil => exact Shrinks.refl progress.2
  | cons row scanned ih =>
      exact (shrinks_purgeKey idx progress row).trans (ih _)

theorem contents_purgeKey {progress : Nat × Db hasher} {idx : Nat}
    {now : Instant} {row : String × Nat} {scanned : List (String × Nat)}
    (captured : progress.2.Captured now (row :: scanned)) :
    TimedMap.Forgets now progress.2.contents
      (purgeKey idx progress row).2.contents := by
  rcases purgeKey_cases idx progress row with ⟨entry, found, removed⟩ | ⟨_, kept⟩
  · rw [removed, contents_fetchSub, contents_removeEntry_of_lookup found]
    have expired := (captured row (by simp) entry (find_of_lookup found)).1
    exact TimedMap.Forgets.of_delete (expiredBy_contents found expired)
  · rw [kept]
    exact TimedMap.Forgets.refl now _

/-- The notes left after the first one has been dealt with. -/
theorem Captured.tail {progress : Nat × Db hasher} {now : Instant}
    {row : String × Nat} {scanned : List (String × Nat)}
    (captured : progress.2.Captured now (row :: scanned)) (idx : Nat) :
    (purgeKey idx progress row).2.Captured now scanned := by
  have rest : progress.2.Captured now scanned :=
    fun noted member => captured noted (List.mem_cons_of_mem row member)
  exact rest.of_shrinks (shrinks_purgeKey idx progress row)

theorem contents_purgeKeys {progress : Nat × Db hasher} {idx : Nat}
    {now : Instant} {scanned : List (String × Nat)}
    (captured : progress.2.Captured now scanned) :
    TimedMap.Forgets now progress.2.contents
      (purgeKeys idx progress scanned).2.contents := by
  induction scanned generalizing progress with
  | nil => exact TimedMap.Forgets.refl now _
  | cons row scanned ih =>
      exact (contents_purgeKey captured).trans (ih (captured.tail idx)) le_rfl

/-- Purging removes nothing but expired bindings. -/
theorem contents_purgeExpiredSample (db : Db hasher) (now : Instant)
    (samplePerShard : Nat) :
    TimedMap.Forgets now db.contents
      (db.purgeExpiredSample now samplePerShard).2.contents := by
  suffices visits : ∀ (indices : List Nat) (progress : Nat × Db hasher),
      TimedMap.Forgets now progress.2.contents
        (indices.foldl (purgeShard now samplePerShard) progress).2.contents from
    visits _ (0, db)
  intro indices
  induction indices with
  | nil => exact fun progress => TimedMap.Forgets.refl now _
  | cons idx indices ih =>
      intro progress
      have captured := progress.2.captured_keysToRemove idx now samplePerShard
      exact (contents_purgeKeys captured).trans (ih _) le_rfl

end Db

end RustiCache
