import Mathlib.Algebra.Order.BigOperators.Group.List
import Mathlib.Algebra.Order.Group.Nat
import RustiCache.SampledSweeps
import RustiCache.ShardedStoreScans
import RustiCache.ShardedStoreTotals

/-!
# What active expiry reclaims

A purge looks at the first entries of every shard in iteration order.  The order
stays the same from purge to purge, so the same unexpired entries are looked at
each time, and once a shard has a full sample of them in front, the expired
entries behind them are never reached.
-/

namespace RustiCache

namespace Table

variable {κ ν : Type} [DecidableEq κ]

theorem kerase_eq_filter (key : κ) {rows : List (Sigma fun _ : κ => ν)}
    (distinct : rows.NodupKeys) :
    rows.kerase key = rows.filter fun row => row.1 ≠ key := by
  induction rows with
  | nil => rfl
  | cons row rows ih =>
      rw [List.nodupKeys_cons] at distinct
      by_cases same : key = row.1
      · have others : ∀ other ∈ rows, other.1 ≠ key := by
          intro other member equal
          apply distinct.1
          rw [← same, ← equal]
          exact List.mem_keys_of_mem member
        rw [List.kerase_cons_eq same, List.filter_cons_of_neg (by simp [same]),
          List.filter_eq_self.mpr (by simpa using others)]
      · rw [List.kerase_cons_ne same, ih distinct.2,
          List.filter_cons_of_pos (by simpa using Ne.symm same)]

end Table

namespace Db

variable {hasher : String → UInt64}

def expiredRow (now : Instant) (row : Sigma fun _ : String => Entry) : Bool :=
  row.2.isExpired now

theorem shard_removeEntry {db : Db hasher} {idx : Nat} {key : String}
    {entry : Entry} (found : AList.lookup key (db.shard idx) = some entry)
    (amount : Nat) :
    ((db.removeEntry idx key).fetchSub amount).shard idx =
      AList.erase key (db.shard idx) :=
  db.shard_putShard_self (AList.erase key (db.shard idx))
    (db.belongs_erase idx key) (idx_lt_of_lookup found)

theorem shard_purgeKey_self (idx : Nat) (progress : Nat × Db hasher)
    (scanned : String × Nat) :
    (purgeKey idx progress scanned).2.shard idx =
      AList.erase scanned.1 (progress.2.shard idx) := by
  rcases purgeKey_cases idx progress scanned with
    ⟨entry, found, removed⟩ | ⟨missing, kept⟩
  · rw [removed, shard_removeEntry found]
  · rw [kept, Table.erase_of_lookup_none missing]

theorem shard_purgeKey_ne {idx other : Nat} (differ : idx ≠ other)
    (progress : Nat × Db hasher) (scanned : String × Nat) :
    (purgeKey idx progress scanned).2.shard other = progress.2.shard other := by
  rcases purgeKey_cases idx progress scanned with
    ⟨entry, found, removed⟩ | ⟨missing, kept⟩
  · rw [removed]
    exact progress.2.shard_putShard_ne _ (progress.2.belongs_erase idx scanned.1)
      differ
  · rw [kept]

/-- The removal leaves the rows whose keys have not been noted, in order. -/
theorem entries_purgeKeys (idx : Nat) (progress : Nat × Db hasher)
    (scanned : List (String × Nat)) :
    ((purgeKeys idx progress scanned).2.shard idx).entries =
      (progress.2.shard idx).entries.filter fun row =>
        row.1 ∉ scanned.map Prod.fst := by
  induction scanned generalizing progress with
  | nil => simp [purgeKeys]
  | cons noted scanned ih =>
      change ((purgeKeys idx (purgeKey idx progress noted) scanned).2.shard
        idx).entries = _
      have erased : ((purgeKey idx progress noted).2.shard idx).entries =
          (progress.2.shard idx).entries.filter fun row => row.1 ≠ noted.1 := by
        rw [shard_purgeKey_self]
        exact Table.kerase_eq_filter noted.1 (progress.2.shard idx).nodupKeys
      rw [ih, erased, List.filter_filter]
      apply List.filter_congr
      intro row _
      rw [← Bool.decide_and]
      apply decide_eq_decide.mpr
      rw [List.map_cons, List.mem_cons]
      tauto

theorem shard_purgeKeys_ne {idx other : Nat} (differ : idx ≠ other)
    (progress : Nat × Db hasher) (scanned : List (String × Nat)) :
    (purgeKeys idx progress scanned).2.shard other = progress.2.shard other := by
  induction scanned generalizing progress with
  | nil => rfl
  | cons noted scanned ih =>
      exact (ih _).trans (shard_purgeKey_ne differ progress noted)

theorem mem_keysToRemove {shard : Shard} {now : Instant} {samplePerShard : Nat}
    {key : String} :
    key ∈ (keysToRemove shard now samplePerShard).map Prod.fst ↔
      ∃ row ∈ shard.entries.take samplePerShard,
        expiredRow now row = true ∧ row.1 = key := by
  simp only [keysToRemove, List.mem_map, List.mem_filterMap, expiredRow,
    isExpired_iff_any]
  constructor
  · rintro ⟨noted, ⟨row, sampled, noting⟩, rfl⟩
    split at noting
    next expired =>
      cases noting
      exact ⟨row, sampled, expired, rfl⟩
    next => cases noting
  · rintro ⟨row, sampled, expired, rfl⟩
    exact ⟨(row.1, row.2.approxSizeBytes), ⟨row, sampled, if_pos expired⟩, rfl⟩

/-- A purge sweeps the rows of each shard. -/
theorem entries_purgeShard_self (now : Instant) (samplePerShard : Nat)
    (progress : Nat × Db hasher) (idx : Nat) :
    ((purgeShard now samplePerShard progress idx).2.shard idx).entries =
      SampledSweep.sweep (expiredRow now) samplePerShard
        (progress.2.shard idx).entries := by
  have distinct := (progress.2.shard idx).nodupKeys
  have own : ∀ row ∈ (progress.2.shard idx).entries,
      row.1 ∈ (keysToRemove (progress.2.shard idx) now samplePerShard).map
          Prod.fst ↔
        row ∈ (progress.2.shard idx).entries.take samplePerShard ∧
          expiredRow now row = true := by
    intro row member
    rw [mem_keysToRemove]
    constructor
    · rintro ⟨scanned, sampled, expired, same⟩
      have equal : scanned = row :=
        distinct.eq_of_fst_eq (List.mem_of_mem_take sampled) member same
      rw [← equal]
      exact ⟨sampled, expired⟩
    · rintro ⟨sampled, expired⟩
      exact ⟨row, sampled, expired, rfl⟩
  rw [purgeShard, entries_purgeKeys]
  rw [← List.take_append_drop samplePerShard (progress.2.shard idx).entries,
    List.filter_append, List.take_append_drop]
  rw [SampledSweep.sweep]
  congr 1
  · apply List.filter_congr
    intro row sampled
    simp [own row (List.mem_of_mem_take sampled), sampled]
  · apply List.filter_eq_self.mpr
    intro row behind
    have unsampled : row ∉ (progress.2.shard idx).entries.take samplePerShard :=
      fun sampled => List.disjoint_take_drop distinct.nodup (Nat.le_refl _)
        sampled behind
    simp [own row (List.mem_of_mem_drop behind), unsampled]

theorem shard_purgeShard_ne {idx other : Nat} (differ : idx ≠ other)
    (now : Instant) (samplePerShard : Nat) (progress : Nat × Db hasher) :
    (purgeShard now samplePerShard progress idx).2.shard other =
      progress.2.shard other :=
  shard_purgeKeys_ne differ progress _

theorem entries_purgeExpiredSample (db : Db hasher) (now : Instant)
    (samplePerShard idx : Nat) :
    ((db.purgeExpiredSample now samplePerShard).2.shard idx).entries =
      SampledSweep.sweep (expiredRow now) samplePerShard
        (db.shard idx).entries := by
  -- Each index is visited once, and a visit leaves the other shards alone.
  have visits : ∀ (indices : List Nat) (progress : Nat × Db hasher),
      indices.Nodup →
      ((indices.foldl (purgeShard now samplePerShard) progress).2.shard
          idx).entries =
        if idx ∈ indices then
          SampledSweep.sweep (expiredRow now) samplePerShard
            (progress.2.shard idx).entries
        else
          (progress.2.shard idx).entries := by
    intro indices
    induction indices with
    | nil =>
        intro progress _
        simp
    | cons first indices ih =>
        intro progress distinct
        rw [List.nodup_cons] at distinct
        rw [List.foldl_cons, ih _ distinct.2]
        by_cases same : first = idx
        · subst same
          rw [if_neg distinct.1, if_pos (List.mem_cons_self ..),
            entries_purgeShard_self]
        · rw [shard_purgeShard_ne same]
          simp [Ne.symm same]
  rw [purgeExpiredSample, visits _ _ List.nodup_range]
  split
  next => rfl
  next beyond =>
    have empty : db.shard idx = ∅ :=
      db.shard_eq_empty (by simpa using beyond)
    simp [empty, SampledSweep.sweep]

theorem count_purgeKey (idx : Nat) (progress : Nat × Db hasher)
    (scanned : String × Nat) :
    (purgeKey idx progress scanned).1 +
        (purgeKey idx progress scanned).2.entryCount =
      progress.1 + progress.2.entryCount := by
  rcases purgeKey_cases idx progress scanned with
    ⟨entry, found, removed⟩ | ⟨missing, kept⟩
  · have fewer := total_removeEntry (fun _ _ => 1) found
    rw [removed]
    change progress.1 + 1 + (progress.2.removeEntry idx scanned.1).entryCount = _
    rw [entryCount, entryCount, ← fewer]
    omega
  · rw [kept]

/-- What a purge returns is the number of entries it removes. -/
theorem count_purgeExpiredSample (db : Db hasher) (now : Instant)
    (samplePerShard : Nat) :
    (db.purgeExpiredSample now samplePerShard).1 +
        (db.purgeExpiredSample now samplePerShard).2.entryCount =
      db.entryCount := by
  have inShard : ∀ (idx : Nat) (scanned : List (String × Nat))
      (progress : Nat × Db hasher),
      (purgeKeys idx progress scanned).1 +
          (purgeKeys idx progress scanned).2.entryCount =
        progress.1 + progress.2.entryCount := by
    intro idx scanned
    induction scanned with
    | nil => exact fun _ => rfl
    | cons noted scanned ih =>
        exact fun progress => (ih _).trans (count_purgeKey idx progress noted)
  have visits : ∀ (indices : List Nat) (progress : Nat × Db hasher),
      (indices.foldl (purgeShard now samplePerShard) progress).1 +
          (indices.foldl (purgeShard now samplePerShard) progress).2.entryCount =
        progress.1 + progress.2.entryCount := by
    intro indices
    induction indices with
    | nil => exact fun _ => rfl
    | cons idx indices ih =>
        exact fun progress => (ih _).trans (inShard idx _ progress)
  exact (visits _ (0, db)).trans (Nat.zero_add _)

/-- Rounds of the eviction task with nothing else going on, the sum of what the
purges return, and the store they leave. -/
def runActiveTtlEviction (db : Db hasher) (times : Nat → Instant)
    (samplePerShard : Nat) : Nat → Nat × Db hasher
  | 0 => (0, db)
  | rounds + 1 =>
      let (total, before) :=
        runActiveTtlEviction db times samplePerShard rounds
      let (purged, after) :=
        before.purgeExpiredSample (times rounds) samplePerShard
      (total + purged, after)

theorem entries_runActiveTtlEviction (db : Db hasher) (times : Nat → Instant)
    (samplePerShard rounds idx : Nat) :
    ((db.runActiveTtlEviction times samplePerShard rounds).2.shard idx).entries =
      SampledSweep.sweeps (fun round => expiredRow (times round)) samplePerShard
        rounds (db.shard idx).entries := by
  induction rounds with
  | zero => rfl
  | succ rounds ih =>
      rw [SampledSweep.sweeps, ← ih]
      exact entries_purgeExpiredSample ..

theorem count_runActiveTtlEviction (db : Db hasher) (times : Nat → Instant)
    (samplePerShard rounds : Nat) :
    (db.runActiveTtlEviction times samplePerShard rounds).1 +
        (db.runActiveTtlEviction times samplePerShard rounds).2.entryCount =
      db.entryCount := by
  induction rounds with
  | zero => exact Nat.zero_add _
  | succ rounds ih =>
      have round := (db.runActiveTtlEviction times samplePerShard
        rounds).2.count_purgeExpiredSample (times rounds) samplePerShard
      rw [← ih, ← round]
      exact Nat.add_assoc ..

/-- Whenever the purges run from `now` on, some number of them leaves nothing
that had expired by then, and they return what they remove. -/
def Reclaims (db : Db hasher) (now : Instant) (samplePerShard : Nat) : Prop :=
  ∀ times : Nat → Instant, (∀ round, now ≤ times round) →
    (∃ rounds, ∀ key entry,
      (db.runActiveTtlEviction times samplePerShard rounds).2.find key =
        some entry → entry.isExpired now = false) ∧
    ∀ rounds,
      (db.runActiveTtlEviction times samplePerShard rounds).1 +
          (db.runActiveTtlEviction times samplePerShard rounds).2.entryCount =
        db.entryCount

theorem expiredRow_mono {now later : Instant} (order : now ≤ later)
    (row : Sigma fun _ : String => Entry)
    (expired : expiredRow now row = true) : expiredRow later row = true := by
  rw [expiredRow, isExpired_iff_any] at expired ⊢
  cases deadline : row.2.expiresAt with
  | none => simp [deadline] at expired
  | some instant =>
      simp only [deadline, Option.any_some, decide_eq_true_eq] at expired ⊢
      exact Nat.le_trans expired order

/-- The largest number of expired entries in a shard bounds the rounds. -/
theorem exists_rounds (db : Db hasher) (now : Instant) :
    ∃ rounds, ∀ idx, (db.shard idx).entries.countP (expiredRow now) ≤ rounds := by
  refine ⟨(db.shards.map fun shard =>
    shard.entries.countP (expiredRow now)).sum, ?_⟩
  intro idx
  by_cases bound : idx < db.shards.length
  · rw [db.shard_eq_getElem bound]
    exact List.le_sum_of_mem (List.mem_map.mpr ⟨_, List.getElem_mem bound, rfl⟩)
  · simp [db.shard_eq_empty (Nat.le_of_not_lt bound)]

/-- With the clock standing still the same entries fill every sample. -/
theorem withinReach_of_reclaims {db : Db hasher} {now : Instant}
    {samplePerShard : Nat} (reclaims : db.Reclaims now samplePerShard)
    (idx : Nat) :
    SampledSweep.WithinReach (expiredRow now) samplePerShard
      (db.shard idx).entries := by
  intro before row after layout expired
  by_contra far
  obtain ⟨rounds, clean⟩ := (reclaims (fun _ => now) fun _ => le_refl now).1
  obtain ⟨front, -, rest⟩ := SampledSweep.sweeps_out_of_reach row after
    (Nat.le_of_not_lt far) rounds
  have member : row ∈ ((db.runActiveTtlEviction (fun _ => now) samplePerShard
      rounds).2.shard idx).entries := by
    rw [entries_runActiveTtlEviction, layout, rest]
    simp
  have stays := clean row.1 row.2
    (find_of_lookup (AList.mem_lookup_iff.mpr member))
  rw [expiredRow, stays] at expired
  cases expired

/-- Active expiry reclaims everything exactly if, in the iteration order of each
shard, fewer than a sample of unexpired entries stand before any expired one. -/
theorem reclaims_iff (db : Db hasher) (now : Instant) (samplePerShard : Nat) :
    db.Reclaims now samplePerShard ↔
      ∀ idx, SampledSweep.WithinReach (expiredRow now) samplePerShard
        (db.shard idx).entries := by
  constructor
  · exact withinReach_of_reclaims
  · intro within times onward
    refine ⟨?_, fun rounds => db.count_runActiveTtlEviction ..⟩
    obtain ⟨rounds, enough⟩ := db.exists_rounds now
    refine ⟨rounds, ?_⟩
    intro key entry found
    rw [find] at found
    have left := SampledSweep.countP_sweeps_le
      (fun round => expiredRow_mono (onward round))
      (within ((db.runActiveTtlEviction times samplePerShard rounds).2.shardIndex
        key)) rounds
    have none := Nat.le_trans left (Nat.sub_le_sub_right (enough _) rounds)
    rw [Nat.sub_self, ← entries_runActiveTtlEviction, Nat.le_zero,
      List.countP_eq_zero] at none
    exact Bool.eq_false_iff.mpr
      (none ⟨key, entry⟩ (AList.mem_lookup_iff.mp found))

/-- One shard in which `a`, which never expires, stands before `b`, which expires
at instant 5. -/
def shadowed : Db fun _ => 0 :=
  ((withConfig _ 1 0).set .front 0 "b" [2] (some 5)).set .front 0 "a" [1] none

/-- With a sample of one, `b` is never looked at. -/
theorem shadowed_never_reclaimed :
    (shadowed.shard 0).entries =
        [⟨"a", .new 1 [1] none 0⟩, ⟨"b", .new 1 [2] (some 5) 0⟩] ∧
      (shadowed.purgeExpiredSample 5 1).1 = 0 ∧
      ¬ shadowed.Reclaims 5 1 := by
  have layout : (shadowed.shard 0).entries =
      [⟨"a", .new 1 [1] none 0⟩, ⟨"b", .new 1 [2] (some 5) 0⟩] := by
    decide +kernel
  refine ⟨layout, by decide +kernel, ?_⟩
  intro reclaims
  have reach := withinReach_of_reclaims reclaims 0 [⟨"a", .new 1 [1] none 0⟩]
    ⟨"b", .new 1 [2] (some 5) 0⟩ [] layout (by decide)
  exact absurd reach (by decide)

end Db

end RustiCache
