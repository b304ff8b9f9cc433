import RustiCache.ArrangedTables
import RustiCache.ByteText

/-!
# The sharded key-value store

The store hashes a key to one of a power-of-two number of shards and keeps the
key's entry in that shard's table.  Every operation takes the clock reading it
works with, and an insertion takes the iteration order that the hash table ends
up with.  A store carries the facts that its mask selects an existing shard and
that a key sits in no shard but its own.
-/

namespace RustiCache

/-- A clock reading, in nanoseconds. -/
abbrev Instant := Nat

structure Entry where
  value : Bytes
  expiresAt : Option Instant
  lastAccessed : Instant
  approxSizeBytes : Nat
deriving DecidableEq

namespace Entry

/-- What `std::mem::size_of` gives for an entry on a 64-bit target. -/
def structSize : Nat := 72

def new (keyLen : Nat) (value : Bytes) (expiresAt : Option Instant)
    (now : Instant) : Entry where
  value := value
  expiresAt := expiresAt
  lastAccessed := now
  approxSizeBytes := keyLen + value.length + structSize

def isExpired (entry : Entry) (now : Instant) : Bool :=
  match entry.expiresAt with
  | some expiresAt => expiresAt ≤ now
  | none => false

def touch (entry : Entry) (now : Instant) : Entry :=
  { entry with lastAccessed := now }

end Entry

abbrev Shard := Table String Entry

/-- A store over a hash function standing for the default hasher. -/
structure Db (hasher : String → UInt64) where
  shards : List Shard
  shardMask : Nat
  usedMemory : UInt64
  maxMemoryBytes : Nat
  shards_length : shards.length = shardMask + 1
  placed : ∀ idx key, key ∈ shards.getD idx ∅ →
    (hasher key).toNat &&& shardMask = idx

namespace Db

variable {hasher : String → UInt64}

/-- A new store; shard counts whose power of two exceeds the machine word
cannot be allocated and are not told apart from the others. -/
def withConfig (hasher : String → UInt64) (shardCount maxMemoryBytes : Nat) :
    Db hasher where
  shards := List.replicate (max shardCount 1).nextPowerOfTwo ∅
  shardMask := (max shardCount 1).nextPowerOfTwo - 1
  usedMemory := 0
  maxMemoryBytes := maxMemoryBytes
  shards_length := by
    have positive : 0 < (max shardCount 1).nextPowerOfTwo :=
      Nat.pos_of_isPowerOfTwo (Nat.isPowerOfTwo_nextPowerOfTwo _)
    rw [List.length_replicate]
    omega
  placed := by
    intro idx key member
    have empty : (List.replicate (max shardCount 1).nextPowerOfTwo
        (∅ : Shard)).getD idx ∅ = ∅ := by
      by_cases bound : idx < (max shardCount 1).nextPowerOfTwo
      · simp [List.getD, bound]
      · simp [List.getD, bound]
    rw [empty] at member
    exact absurd member (AList.notMem_empty key)

def new (hasher : String → UInt64) : Db hasher :=
  withConfig hasher 128 0

def shardIndex (db : Db hasher) (key : String) : Nat :=
  (hasher key).toNat &&& db.shardMask

def shard (db : Db hasher) (idx : Nat) : Shard :=
  db.shards.getD idx ∅

/-- Write back a shard all of whose keys belong to it. -/
def putShard (db : Db hasher) (idx : Nat) (shard : Shard)
    (belongs : ∀ key ∈ shard, db.shardIndex key = idx) : Db hasher where
  shards := db.shards.set idx shard
  shardMask := db.shardMask
  usedMemory := db.usedMemory
  maxMemoryBytes := db.maxMemoryBytes
  shards_length := by rw [List.length_set, db.shards_length]
  placed := by
    intro other key member
    by_cases same : idx = other
    · subst same
      by_cases bound : idx < db.shards.length
      · rw [List.getD, List.getElem?_set_self bound] at member
        exact belongs key member
      · rw [List.set_eq_of_length_le (Nat.le_of_not_lt bound)] at member
        exact db.placed idx key member
    · rw [List.getD, List.getElem?_set_ne same] at member
      exact db.placed other key member

theorem belongs_insert (db : Db hasher) (arrangement : Arrangement)
    (key : String) (entry : Entry) :
    ∀ other ∈ Table.insert arrangement key entry (db.shard (db.shardIndex key)),
      db.shardIndex other = db.shardIndex key := by
  intro other member
  have found := AList.lookup_isSome.mpr member
  rw [Table.lookup_insert] at found
  split at found
  next same => rw [same]
  next differ => exact db.placed _ other (AList.lookup_isSome.mp found)

theorem belongs_erase (db : Db hasher) (idx : Nat) (key : String) :
    ∀ other ∈ AList.erase key (db.shard idx), db.shardIndex other = idx := by
  intro other member
  exact db.placed idx other (AList.mem_erase.mp member).2

theorem belongs_replace (db : Db hasher) (key : String) (entry : Entry) :
    ∀ other ∈ AList.replace key entry (db.shard (db.shardIndex key)),
      db.shardIndex other = db.shardIndex key := by
  intro other member
  exact db.placed _ other (AList.mem_replace.mp member)

/-- `HashMap::insert` into the key's own shard. -/
def insertEntry (db : Db hasher) (arrangement : Arrangement) (key : String)
    (entry : Entry) : Db hasher :=
  db.putShard (db.shardIndex key)
    (Table.insert arrangement key entry (db.shard (db.shardIndex key)))
    (db.belongs_insert arrangement key entry)

/-- `HashMap::remove` from the shard with the given index. -/
def removeEntry (db : Db hasher) (idx : Nat) (key : String) : Db hasher :=
  db.putShard idx (AList.erase key (db.shard idx)) (db.belongs_erase idx key)

/-- Overwrite an entry of the key's own shard in place. -/
def replaceEntry (db : Db hasher) (key : String) (entry : Entry) : Db hasher :=
  db.putShard (db.shardIndex key)
    (AList.replace key entry (db.shard (db.shardIndex key)))
    (db.belongs_replace key entry)

def fetchSub (db : Db hasher) (amount : Nat) : Db hasher :=
  { db with usedMemory := db.usedMemory - UInt64.ofNat amount }

def fetchAdd (db : Db hasher) (amount : Nat) : Db hasher :=
  { db with usedMemory := db.usedMemory + UInt64.ofNat amount }

/-- The first locked section of `get`: an answer if the call ends there, and
nothing if the entry turns out to be expired. -/
def getTouch (db : Db hasher) (now : Instant) (key : String) :
    Option (Option Bytes) × Db hasher :=
  match AList.lookup key (db.shard (db.shardIndex key)) with
  | some entry =>
      if entry.isExpired now then
        (none, db)
      else
        (some (some entry.value), db.replaceEntry key (entry.touch now))
  | none => (some none, db)

/-- The second locked section of `get`: lazy cleanup for an expired key. -/
def getCleanup (db : Db hasher) (now : Instant) (key : String) : Db hasher :=
  match AList.lookup key (db.shard (db.shardIndex key)) with
  | some entry =>
      if entry.isExpired now then
        (db.removeEntry (db.shardIndex key) key).fetchSub entry.approxSizeBytes
      else
        db
  | none => db

def get (db : Db hasher) (now : Instant) (key : String) :
    Option Bytes × Db hasher :=
  match db.getTouch now key with
  | (some answer, next) => (answer, next)
  | (none, next) => (none, next.getCleanup now key)

/-- Keep the least recently used entry met so far. -/
def older (idx : Nat) (oldest : Option (Nat × String × Instant))
    (row : Sigma fun _ : String => Entry) : Option (Nat × String × Instant) :=
  match oldest with
  | none => some (idx, row.1, row.2.lastAccessed)
  | some (oldIdx, key, ts) =>
      if row.2.lastAccessed < ts then
        some (idx, row.1, row.2.lastAccessed)
      else
        some (oldIdx, key, ts)

/-- The least recently used entry across a sample of five from each shard. -/
def oldestSampled (db : Db hasher) : Option (Nat × String × Instant) :=
  db.shards.zipIdx.foldl
    (fun oldest indexed =>
      (indexed.1.entries.take 5).foldl (older indexed.2) oldest)
    none

/-- One round of the eviction loop, or nothing if the loop ends. -/
def evictOne (db : Db hasher) : Option (Db hasher) :=
  if db.maxMemoryBytes ≤ db.usedMemory.toNat then
    match db.oldestSampled with
    | some (idx, key, _) =>
        match AList.lookup key (db.shard idx) with
        | some removed =>
            some ((db.removeEntry idx key).fetchSub removed.approxSizeBytes)
        | none => none
    | none => none
  else
    none

def evictRounds : Nat → Db hasher → Db hasher
  | 0, db => db
  | rounds + 1, db =>
      match db.evictOne with
      | some next => evictRounds rounds next
      | none => db

/-- The sum of a weight over all stored entries. -/
def total (db : Db hasher) (weight : String → Entry → Nat) : Nat :=
  (db.shards.map (Table.total weight)).sum

def entryCount (db : Db hasher) : Nat :=
  db.total fun _ _ => 1

/-- The eviction loop; every round removes an entry, so the number of entries
bounds the rounds. -/
def ensureMemoryCapacity (db : Db hasher) : Db hasher :=
  evictRounds db.entryCount db

/-- The locked section of `set`. -/
def setEntry (db : Db hasher) (arrangement : Arrangement) (key : String)
    (newEntry : Entry) : Db hasher :=
  let inserted := db.insertEntry arrangement key newEntry
  let released :=
    match AList.lookup key (db.shard (db.shardIndex key)) with
    | some old => inserted.fetchSub old.approxSizeBytes
    | none => inserted
  released.fetchAdd newEntry.approxSizeBytes

def set (db : Db hasher) (arrangement : Arrangement) (now : Instant)
    (key : String) (value : Bytes) (expiresAt : Option Instant) : Db hasher :=
  let roomy :=
    if 0 < db.maxMemoryBytes then db.ensureMemoryCapacity else db
  roomy.setEntry arrangement key
    (Entry.new (asBytes key).length value expiresAt now)

def del (db : Db hasher) (key : String) : Bool × Db hasher :=
  let idx := db.shardIndex key
  match AList.lookup key (db.shard idx) with
  | some entry => (true, (db.removeEntry idx key).fetchSub entry.approxSizeBytes)
  | none => (false, db)

def «exists» (db : Db hasher) (now : Instant) (key : String) :
    Bool × Db hasher :=
  ((db.get now key).1.isSome, (db.get now key).2)

def keys (db : Db hasher) (now : Instant) : List String :=
  db.shards.flatMap fun shard =>
    shard.entries.filterMap fun row =>
      if row.2.expiresAt.all (now < ·) then some row.1 else none

def memoryUsed (db : Db hasher) : Nat :=
  db.usedMemory.toNat

/-- The read-locked scan of one shard. -/
def keysToRemove (shard : Shard) (now : Instant) (samplePerShard : Nat) :
    List (String × Nat) :=
  (shard.entries.take samplePerShard).filterMap fun row =>
    if row.2.expiresAt.any (· ≤ now) then
      some (row.1, row.2.approxSizeBytes)
    else
      none

/-- Remove one scanned key, subtracting the size noted by the scan. -/
def purgeKey (idx : Nat) (progress : Nat × Db hasher) (scanned : String × Nat) :
    Nat × Db hasher :=
  match AList.lookup scanned.1 (progress.2.shard idx) with
  | some _ =>
      (progress.1 + 1, (progress.2.removeEntry idx scanned.1).fetchSub scanned.2)
  | none => progress

/-- The write-locked removal in one shard. -/
def purgeKeys (idx : Nat) (progress : Nat × Db hasher)
    (scanned : List (String × Nat)) : Nat × Db hasher :=
  scanned.foldl (purgeKey idx) progress

/-- The scan of one shard followed by the removal. -/
def purgeShard (now : Instant) (samplePerShard : Nat)
    (progress : Nat × Db hasher) (idx : Nat) : Nat × Db hasher :=
  purgeKeys idx progress
    (keysToRemove (progress.2.shard idx) now samplePerShard)

def purgeExpiredSample (db : Db hasher) (now : Instant) (samplePerShard : Nat) :
    Nat × Db hasher :=
  (List.range db.shards.length).foldl (purgeShard now samplePerShard) (0, db)

end Db

/-- What a call of the store returns. -/
inductive StoreAnswer where
  | value (found : Option Bytes)
  | flag (present : Bool)
  | names (keys : List String)
  | count (purged : Nat)
  | done
deriving DecidableEq

end RustiCache
