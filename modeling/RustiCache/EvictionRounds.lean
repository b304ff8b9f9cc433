import RustiCache.RemovalLoops
import RustiCache.ShardedStoreScans
import RustiCache.ShardedStoreTotals
import Mathlib.Data.List.MinMax

/-!
# The rounds of the eviction loop

The nested scan of a round is the first minimum, by last access, of the sampled
rows.  Some row is sampled whenever anything is stored, and the sampled key is
still there when it is removed, so a round either removes an entry of least
last access among the sampled ones or finds the memory below its bound.
-/

namespace RustiCache

namespace Db

variable {hasher : String → UInt64}

section Sample

/-- What a scan for eviction looks at: shard, key and last access. -/
def sample (db : Db hasher) : List (Nat × String × Instant) :=
  db.shards.zipIdx.flatMap fun indexed =>
    (indexed.1.entries.take 5).map fun row =>
      (indexed.2, row.1, row.2.lastAccessed)

theorem oldestSampled_eq_argmin (db : Db hasher) :
    db.oldestSampled = db.sample.argmin fun row => row.2.2 := by
  have step : ∀ (idx : Nat) (oldest : Option (Nat × String × Instant))
      (row : Sigma fun _ : String => Entry),
      older idx oldest row =
        List.argAux (fun first second : Nat × String × Instant =>
          first.2.2 < second.2.2) oldest (idx, row.1, row.2.lastAccessed) := by
    intro idx oldest row
    cases oldest <;> rfl
  unfold oldestSampled sample List.argmin
  simp only [List.foldl_flatMap, List.foldl_map, ← step]

theorem mem_sample {db : Db hasher} {idx : Nat} {key : String} {ts : Instant} :
    (idx, key, ts) ∈ db.sample ↔
      ∃ entry, ⟨key, entry⟩ ∈ (db.shard idx).entries.take 5 ∧
        entry.lastAccessed = ts := by
  simp only [sample, List.mem_flatMap, List.mem_map, List.mem_zipIdx_iff_getElem?]
  constructor
  · rintro ⟨⟨table, place⟩, stored, ⟨stored_key, entry⟩, sampled, ⟨⟩⟩
    refine ⟨entry, ?_, rfl⟩
    rw [shard, List.getD, stored]
    exact sampled
  · rintro ⟨entry, sampled, rfl⟩
    by_cases bound : idx < db.shards.length
    · rw [db.shard_eq_getElem bound] at sampled
      exact ⟨⟨db.shards[idx], idx⟩, List.getElem?_eq_getElem bound,
        ⟨key, entry⟩, sampled, rfl⟩
    · rw [db.shard_eq_empty (Nat.le_of_not_lt bound)] at sampled
      cases sampled

/-- The sampled key of least last access is stored and is no later than any
other sampled key. -/
theorem oldestSampled_spec {db : Db hasher} {idx : Nat} {key : String}
    {ts : Instant} (oldest : db.oldestSampled = some (idx, key, ts)) :
    ∃ entry, AList.lookup key (db.shard idx) = some entry ∧
      ∀ other, ∀ row ∈ (db.shard other).entries.take 5,
        entry.lastAccessed ≤ row.2.lastAccessed := by
  rw [oldestSampled_eq_argmin] at oldest
  obtain ⟨entry, sampled, accessed⟩ := mem_sample.mp (List.argmin_mem oldest)
  refine ⟨entry, AList.mem_lookup_iff.mpr (List.mem_of_mem_take sampled), ?_⟩
  intro other row rowSampled
  have member : (other, row.1, row.2.lastAccessed) ∈ db.sample :=
    mem_sample.mpr ⟨row.2, rowSampled, rfl⟩
  rw [accessed]
  exact List.le_of_mem_argmin member oldest

/-- The scan finds something unless the store is empty. -/
theorem entries_eq_nil_of_oldestSampled {db : Db hasher}
    (nothing : db.oldestSampled = none) (idx : Nat) :
    (db.shard idx).entries = [] := by
  rw [oldestSampled_eq_argmin, List.argmin_eq_none] at nothing
  cases layout : (db.shard idx).entries with
  | nil => rfl
  | cons row rows =>
      have member : (idx, row.1, row.2.lastAccessed) ∈ db.sample := by
        apply mem_sample.mpr
        refine ⟨row.2, ?_, rfl⟩
        rw [layout]
        exact List.mem_cons_self
      rw [nothing] at member
      cases member

end Sample

section Rounds

/-- A round of the eviction loop with the entry it removes. -/
def evictRound (db : Db hasher) : Option ((String × Entry) × Db hasher) :=
  if db.maxMemoryBytes ≤ db.usedMemory.toNat then
    match db.oldestSampled with
    | some (idx, key, _) =>
        match AList.lookup key (db.shard idx) with
        | some removed =>
            some ((key, removed),
              (db.removeEntry idx key).fetchSub removed.approxSizeBytes)
        | none => none
    | none => none
  else
    none

theorem evictOne_eq (db : Db hasher) :
    db.evictOne = db.evictRound.map Prod.snd := by
  unfold evictOne evictRound
  split
  next =>
    cases db.oldestSampled with
    | none => rfl
    | some oldest =>
        obtain ⟨idx, key, ts⟩ := oldest
        dsimp only
        cases AList.lookup key (db.shard idx) <;> rfl
  next => rfl

/-- What a round does. -/
theorem evictRound_cases {db next : Db hasher} {key : String} {entry : Entry}
    (taken : db.evictRound = some ((key, entry), next)) :
    db.maxMemoryBytes ≤ db.usedMemory.toNat ∧
      db.find key = some entry ∧
      next = (db.removeEntry (db.shardIndex key) key).fetchSub
        entry.approxSizeBytes ∧
      ∀ idx, ∀ row ∈ (db.shard idx).entries.take 5,
        entry.lastAccessed ≤ row.2.lastAccessed := by
  unfold evictRound at taken
  split at taken
  next full =>
    split at taken
    next idx oldestKey ts oldest =>
      obtain ⟨stored, found, least⟩ := oldestSampled_spec oldest
      rw [found] at taken
      cases taken
      rw [shardIndex_of_lookup found]
      exact ⟨full, find_of_lookup found, rfl, least⟩
    next => cases taken
  next => cases taken

/-- The loop ends because the memory is below its bound or the store empty. -/
theorem evictRound_eq_none {db : Db hasher} (ends : db.evictRound = none) :
    db.usedMemory.toNat < db.maxMemoryBytes ∨
      ∀ idx, (db.shard idx).entries = [] := by
  unfold evictRound at ends
  split at ends
  next =>
    split at ends
    next idx key ts oldest =>
      obtain ⟨stored, found, _⟩ := oldestSampled_spec oldest
      rw [found] at ends
      cases ends
    next nothing => exact Or.inr (entries_eq_nil_of_oldestSampled nothing)
  next roomy => exact Or.inl (Nat.lt_of_not_le roomy)

theorem evictRound_of_lt {db : Db hasher}
    (roomy : db.usedMemory.toNat < db.maxMemoryBytes) : db.evictRound = none :=
  if_neg (Nat.not_le_of_lt roomy)

/-- The entries of a store with their keys. -/
def stored (db : Db hasher) : Set (String × Entry) :=
  {row | db.find row.1 = some row.2}

theorem find_evictRound {db next : Db hasher} {key : String} {entry : Entry}
    (taken : db.evictRound = some ((key, entry), next)) (other : String) :
    next.find other = if other = key then none else db.find other := by
  obtain ⟨_, _, rfl, _⟩ := evictRound_cases taken
  exact db.find_removeEntry key other

theorem takesOne_evictRound :
    RemovalLoop.TakesOne (@evictRound hasher) stored := by
  rintro db ⟨key, entry⟩ next taken
  obtain ⟨_, found, _, _⟩ := evictRound_cases taken
  refine ⟨found, ?_⟩
  rintro ⟨other, kept⟩
  change next.find other = some kept ↔ db.find other = some kept ∧ _
  rw [find_evictRound taken]
  by_cases same : other = key
  · subst same
    simp [found, eq_comm]
  · simp [same]

theorem entryCount_evictRound {db next : Db hasher} {victim : String × Entry}
    (taken : db.evictRound = some (victim, next)) :
    next.entryCount + 1 = db.entryCount := by
  apply entryCount_of_evictOne
  rw [evictOne_eq, taken]
  rfl

/-- A run of the loop ends where `ensureMemoryCapacity` says. -/
theorem ensureMemoryCapacity_of_run {db last : Db hasher}
    {victims : List (String × Entry)}
    (run : RemovalLoop.Run evictRound db victims last) :
    db.ensureMemoryCapacity = last := by
  obtain ⟨rounds, ends⟩ := run
  induction rounds with
  | refl db =>
      rw [ensureMemoryCapacity_eq, evictOne_eq, ends]
      rfl
  | step taken _ ih =>
      rw [ensureMemoryCapacity_eq, evictOne_eq, taken]
      exact ih ends

/-- The loop runs to its end, since every round removes an entry. -/
theorem exists_run_ensureMemoryCapacity (db : Db hasher) :
    ∃ victims, RemovalLoop.Run evictRound db victims db.ensureMemoryCapacity := by
  have lowers : ∀ {db : Db hasher} {victim : String × Entry} {next : Db hasher},
      db.evictRound = some (victim, next) → next.entryCount < db.entryCount := by
    intro db victim next taken
    have fewer := entryCount_evictRound taken
    omega
  obtain ⟨victims, last, run⟩ := RemovalLoop.exists_run entryCount lowers db
  rw [ensureMemoryCapacity_of_run run]
  exact ⟨victims, run⟩

def totalSize (victims : List (String × Entry)) : Nat :=
  (victims.map fun victim => victim.2.approxSizeBytes).sum

theorem usedMemory_of_rounds {db last : Db hasher}
    {victims : List (String × Entry)}
    (rounds : RemovalLoop.Rounds evictRound db victims last) :
    last.usedMemory = db.usedMemory - UInt64.ofNat (totalSize victims) := by
  induction rounds with
  | refl db => simp [totalSize]
  | @step db next last victim victims taken _ ih =>
      obtain ⟨_, _, rfl, _⟩ := evictRound_cases taken
      rw [ih]
      change db.usedMemory - UInt64.ofNat victim.2.approxSizeBytes - _ = _
      simp only [totalSize, List.map_cons, List.sum_cons, UInt64.ofNat_add]
      grind

theorem maxMemoryBytes_of_rounds {db last : Db hasher}
    {victims : List (String × Entry)}
    (rounds : RemovalLoop.Rounds evictRound db victims last) :
    last.maxMemoryBytes = db.maxMemoryBytes := by
  induction rounds with
  | refl db => rfl
  | step taken _ ih =>
      obtain ⟨_, _, rfl, _⟩ := evictRound_cases taken
      exact ih

end Rounds

/-- Three entries in one shard, the second of them accessed first, with the
memory at its bound. -/
def crowded : Db fun _ => 0 :=
  let put := fun (db : Db fun _ => 0) (key : String) (now : Instant) =>
    db.set .front now key [] none
  put (put (put (withConfig _ 1 200) "a" 20) "b" 10) "c" 30

end Db

end RustiCache
