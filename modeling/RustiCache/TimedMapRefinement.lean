import RustiCache.ShardedStoreScans
import Mathlib.Data.List.Forall2

/-!
# The sharded store refines a timed map

A sequence of calls drives a store and, side by side, the timed map in which a
key is bound by the last `set` not followed by a `del`.  An unbounded store
differs from the map only by bindings that have expired, so its answers are the
map's answers.  A bounded store may also have evicted bindings, so a `get` may
miss, but never answers anything else.
-/

namespace RustiCache

inductive StoreOp where
  | get (key : String)
  | set (key : String) (value : Bytes) (expiresAt : Option Instant)
  | del (key : String)
  | exists (key : String)
  | keys
  | purgeExpiredSample (samplePerShard : Nat)
deriving DecidableEq

/-- A call with its clock reading and the iteration order that an insertion
leaves behind. -/
structure StoreCall where
  op : StoreOp
  now : Instant
  arrangement : Arrangement

namespace StoreOp

/-- The key whose binding an operation changes. -/
def written : StoreOp → Option String
  | set key _ _ => some key
  | del key => some key
  | _ => none

def isRead : StoreOp → Bool
  | get _ | «exists» _ | keys => true
  | _ => false

def isPurge : StoreOp → Bool
  | purgeExpiredSample _ => true
  | _ => false

/-- The effect on the timed map. -/
def apply (map : TimedMap String Bytes Instant) :
    StoreOp → TimedMap String Bytes Instant
  | set key value expiresAt => map.write key value expiresAt
  | del key => map.delete key
  | _ => map

/-- The answers that the timed map allows to an operation at a time. -/
def Answers (map : TimedMap String Bytes Instant) (now : Instant) :
    StoreOp → StoreAnswer → Prop
  | get key, answer => answer = .value (map.get now key)
  | «exists» key, answer => answer = .flag (map.get now key).isSome
  | keys, answer =>
      ∃ names, answer = .names names ∧ names.Nodup ∧
        ∀ key, key ∈ names ↔ (map.get now key).isSome
  | _, _ => True

/-- The answers allowed to a store that may have evicted bindings. -/
def AnswersWithin (map : TimedMap String Bytes Instant) (now : Instant) :
    StoreOp → StoreAnswer → Prop
  | get key, answer =>
      answer = .value none ∨ answer = .value (map.get now key)
  | _, _ => True

/-- A sequence of answers is allowed by the timed map along the calls. -/
def Explained
    (allowed : TimedMap String Bytes Instant → Instant → StoreOp →
      StoreAnswer → Prop) :
    TimedMap String Bytes Instant → List StoreCall → List StoreAnswer → Prop
  | _, [], [] => True
  | map, call :: calls, answer :: answers =>
      allowed map call.now call.op answer ∧
        Explained allowed (apply map call.op) calls answers
  | _, _, _ => False

end StoreOp

namespace Db

variable {hasher : String → UInt64}

def call (db : Db hasher) (request : StoreCall) : StoreAnswer × Db hasher :=
  match request.op with
  | .get key => ((db.get request.now key).map .value id)
  | .set key value expiresAt =>
      (.done, db.set request.arrangement request.now key value expiresAt)
  | .del key => (db.del key).map .flag id
  | .exists key => (db.exists request.now key).map .flag id
  | .keys => (.names (db.keys request.now), db)
  | .purgeExpiredSample samplePerShard =>
      (db.purgeExpiredSample request.now samplePerShard).map .count id

def run (db : Db hasher) : List StoreCall → List StoreAnswer × Db hasher
  | [] => ([], db)
  | request :: requests =>
      let (answer, next) := db.call request
      let (answers, last) := next.run requests
      (answer :: answers, last)

theorem maxMemoryBytes_evictRounds (rounds : Nat) (db : Db hasher) :
    (evictRounds rounds db).maxMemoryBytes = db.maxMemoryBytes := by
  induction rounds generalizing db with
  | zero => rfl
  | succ rounds ih =>
      rw [evictRounds]
      split
      next next evicted =>
        obtain ⟨idx, key, removed, _, rfl⟩ := evictOne_cases evicted
        rw [ih]
        rfl
      next => rfl

theorem maxMemoryBytes_purgeKeys (idx : Nat) (progress : Nat × Db hasher)
    (scanned : List (String × Nat)) :
    (purgeKeys idx progress scanned).2.maxMemoryBytes =
      progress.2.maxMemoryBytes := by
  induction scanned generalizing progress with
  | nil => rfl
  | cons row scanned ih =>
      refine (ih _).trans ?_
      rcases purgeKey_cases idx progress row with ⟨_, _, removed⟩ | ⟨_, kept⟩
      · rw [removed]
        rfl
      · rw [kept]

theorem maxMemoryBytes_get (db : Db hasher) (now : Instant) (key : String) :
    (db.get now key).2.maxMemoryBytes = db.maxMemoryBytes := by
  rw [get, getTouch]
  cases found : AList.lookup key (db.shard (db.shardIndex key)) with
  | none => rfl
  | some entry =>
      cases expired : entry.isExpired now with
      | false => simp [expired, replaceEntry, putShard]
      | true =>
          simp [expired, getCleanup, found, removeEntry, putShard, fetchSub]

/-- No call changes the memory bound. -/
theorem maxMemoryBytes_call (db : Db hasher) (request : StoreCall) :
    (db.call request).2.maxMemoryBytes = db.maxMemoryBytes := by
  rw [call]
  cases request.op with
  | get key => exact db.maxMemoryBytes_get request.now key
  | set key value expiresAt =>
      have roomy : (if 0 < db.maxMemoryBytes then db.ensureMemoryCapacity
          else db).maxMemoryBytes = db.maxMemoryBytes := by
        split
        · exact maxMemoryBytes_evictRounds _ db
        · rfl
      refine Eq.trans ?_ roomy
      simp only [set, setEntry]
      split <;> rfl
  | del key =>
      simp only [del]
      split <;> rfl
  | «exists» key => exact db.maxMemoryBytes_get request.now key
  | keys => rfl
  | purgeExpiredSample samplePerShard =>
      suffices visits : ∀ (indices : List Nat) (progress : Nat × Db hasher),
          (indices.foldl (purgeShard request.now samplePerShard)
            progress).2.maxMemoryBytes = progress.2.maxMemoryBytes from
        visits _ (0, db)
      intro indices
      induction indices with
      | nil => exact fun _ => rfl
      | cons idx indices ih =>
          intro progress
          exact (ih _).trans (maxMemoryBytes_purgeKeys idx progress _)

/-- What one call does to the timed map: the operation's own effect, up to
evictions and up to forgetting what has expired. -/
theorem contents_call (db : Db hasher) (request : StoreCall) :
    ∃ kept, TimedMap.Within db.contents kept ∧
      (db.maxMemoryBytes = 0 → kept = db.contents) ∧
      TimedMap.Forgets request.now (request.op.apply kept)
        (db.call request).2.contents := by
  rw [call]
  have reads : ∀ {next : Db hasher},
      TimedMap.Forgets request.now db.contents next.contents →
      ∃ kept, TimedMap.Within db.contents kept ∧
        (db.maxMemoryBytes = 0 → kept = db.contents) ∧
        TimedMap.Forgets request.now kept next.contents :=
    fun forgets => ⟨_, TimedMap.Within.refl _, fun _ => rfl, forgets⟩
  cases request.op with
  | get key => exact reads (db.contents_get request.now key)
  | set key value expiresAt =>
      obtain ⟨kept, within, unbounded, written⟩ :=
        db.contents_set request.arrangement request.now key value expiresAt
      refine ⟨kept, within, unbounded, ?_⟩
      change TimedMap.Forgets _ _ (db.set _ _ key value expiresAt).contents
      rw [written]
      exact TimedMap.Forgets.refl _ _
  | del key =>
      refine ⟨_, TimedMap.Within.refl _, fun _ => rfl, ?_⟩
      change TimedMap.Forgets _ _ (db.del key).2.contents
      rw [contents_del]
      exact TimedMap.Forgets.refl _ _
  | «exists» key => exact reads (db.contents_get request.now key)
  | keys => exact reads (TimedMap.Forgets.refl _ _)
  | purgeExpiredSample samplePerShard =>
      exact reads (db.contents_purgeExpiredSample request.now samplePerShard)

/-- The answers of a store are those of its own contents. -/
theorem answers_call (db : Db hasher) (request : StoreCall) :
    request.op.Answers db.contents request.now (db.call request).1 := by
  rw [call]
  cases request.op with
  | get key => exact congrArg StoreAnswer.value (db.get_answer request.now key)
  | «exists» key =>
      exact congrArg (fun answer => StoreAnswer.flag answer.isSome)
        (db.get_answer request.now key)
  | keys =>
      exact ⟨_, rfl, db.nodup_keys request.now, db.mem_keys_iff request.now⟩
  | set key value expiresAt => trivial
  | del key => trivial
  | purgeExpiredSample samplePerShard => trivial

end Db

namespace StoreOp

/-- The effect of an operation respects forgetting and eviction. -/
theorem forgets_apply {now : Instant} {full kept : TimedMap String Bytes Instant}
    (forgets : TimedMap.Forgets now full kept) (op : StoreOp) :
    TimedMap.Forgets now (op.apply full) (op.apply kept) := by
  cases op with
  | set key value expiresAt => exact forgets.update key _
  | del key => exact forgets.update key _
  | _ => exact forgets

theorem within_apply {full kept : TimedMap String Bytes Instant}
    (within : TimedMap.Within full kept) (op : StoreOp) :
    TimedMap.Within (op.apply full) (op.apply kept) := by
  cases op with
  | set key value expiresAt => exact within.update key _
  | del key => exact within.update key _
  | _ => exact within

theorem Answers.of_forgets {now later : Instant}
    {full kept : TimedMap String Bytes Instant}
    (forgets : TimedMap.Forgets now full kept) (order : now ≤ later)
    {op : StoreOp} {answer : StoreAnswer}
    (answers : op.Answers kept later answer) :
    op.Answers full later answer := by
  cases op with
  | get key => rwa [Answers, ← forgets.get order]
  | «exists» key => rwa [Answers, ← forgets.get order]
  | keys =>
      obtain ⟨names, listed, distinct, exactly⟩ := answers
      refine ⟨names, listed, distinct, fun key => ?_⟩
      rw [exactly, forgets.get order]
  | set key value expiresAt => trivial
  | del key => trivial
  | purgeExpiredSample samplePerShard => trivial

theorem Answers.within {now : Instant}
    {full kept : TimedMap String Bytes Instant}
    (within : TimedMap.Within full kept) {op : StoreOp} {answer : StoreAnswer}
    (answers : op.Answers kept now answer) :
    op.AnswersWithin full now answer := by
  cases op with
  | get key =>
      rw [Answers] at answers
      rcases within.get now key with missed | found
      · exact Or.inl (by rw [answers, missed])
      · exact Or.inr (by rw [answers, found])
  | _ => trivial

end StoreOp

/-- Clock readings do not go back. -/
def ClockOrdered (calls : List StoreCall) : Prop :=
  calls.Pairwise fun first second => first.now ≤ second.now

instance (calls : List StoreCall) : Decidable (ClockOrdered calls) :=
  inferInstanceAs (Decidable (calls.Pairwise _))

namespace Db

variable {hasher : String → UInt64}

/-- Along a run, an unbounded store only forgets what has expired. -/
theorem run_explained {calls : List StoreCall} (ordered : ClockOrdered calls)
    {db : Db hasher} (unbounded : db.maxMemoryBytes = 0)
    {map : TimedMap String Bytes Instant} {start : Instant}
    (forgets : TimedMap.Forgets start map db.contents)
    (starts : ∀ call ∈ calls, start ≤ call.now) :
    StoreOp.Explained StoreOp.Answers map calls (db.run calls).1 := by
  induction calls generalizing db map start with
  | nil => trivial
  | cons request calls ih =>
      have order : start ≤ request.now := starts request (by simp)
      obtain ⟨kept, _, same, next⟩ := db.contents_call request
      rw [same unbounded] at next
      have stillUnbounded : (db.call request).2.maxMemoryBytes = 0 :=
        (db.maxMemoryBytes_call request).trans unbounded
      have stillForgets :=
        (StoreOp.forgets_apply forgets request.op).trans next order
      obtain ⟨later, orderedRest⟩ := List.pairwise_cons.mp ordered
      exact ⟨(db.answers_call request).of_forgets forgets order,
        ih orderedRest stillUnbounded stillForgets later⟩

/-- Along a run, any store keeps some of the bindings and adds none. -/
theorem run_explained_within (calls : List StoreCall) {db : Db hasher}
    {map : TimedMap String Bytes Instant}
    (within : TimedMap.Within map db.contents) :
    StoreOp.Explained StoreOp.AnswersWithin map calls (db.run calls).1 := by
  induction calls generalizing db map with
  | nil => trivial
  | cons request calls ih =>
      obtain ⟨kept, evicted, _, next⟩ := db.contents_call request
      refine ⟨(db.answers_call request).within within, ih ?_⟩
      exact (StoreOp.within_apply (within.trans evicted) request.op).trans
        next.within

theorem maxMemoryBytes_run (db : Db hasher) (calls : List StoreCall) :
    (db.run calls).2.maxMemoryBytes = db.maxMemoryBytes := by
  induction calls generalizing db with
  | nil => rfl
  | cons request calls ih => exact (ih _).trans (db.maxMemoryBytes_call request)

end Db

end RustiCache
