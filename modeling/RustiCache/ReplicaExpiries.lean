import RustiCache.LateCommands
import RustiCache.PastStates

/-!
# Keys do not expire early on a replica

A `SET` with the option `PX` is passed on to the replicas as it is, and a replica
replays it later.  So a key lives on the replica at least as long as on the
master: as long as a client can read it from the master, it can be read from the
replica, unless a command for the key has still to be replayed there.
-/

namespace RustiCache

open Command (logWrite)
open TimedMap (Outlives)

namespace Follower

variable {hasher : String → UInt64} {follower after : Follower hasher}

theorem advance_keeps (advanced : follower.advance = some after) :
    after.handled = follower.handled ∧
      after.server.db = follower.server.db := by
  cases follower with
  | syncing server task =>
      obtain ⟨replica, read, rfl⟩ := Option.map_eq_some_iff.mp advanced
      split <;> exact ⟨rfl, rfl⟩
  | streaming state => cases advanced

theorem others_keeps (server : ServerState hasher) :
    (follower.others server).handled = follower.handled ∧
      (follower.others server).server.db = server.db := by
  cases follower <;> exact ⟨rfl, rfl⟩

end Follower

namespace ServerPool

variable {hasher : String → UInt64}

/-- What has been propagated since a log was that long, and not been handled by a
replica. -/
def unhandled (pool : ServerPool hasher) (log : List Bytes)
    (handled : List (Bytes × Value)) : List Bytes :=
  (pool.propagated.drop log.length).drop handled.length

end ServerPool

/-- A replica without a memory bound.  If it has been registered after a log,
then the keys of the master do not expire early on it. -/
structure Copies {hasher replicaHasher : String → UInt64}
    (log : Option (List Bytes)) (now : Instant) (pool : ServerPool hasher)
    (follower : Follower replicaHasher) : Prop where
  unbounded : follower.server.db.maxMemoryBytes = 0
  outlives : ∀ since ∈ log, Outlives now pool.server.db.contents
    ((pool.unhandled since follower.handled).map logWrite)
    follower.server.db.contents

namespace Copies

variable {hasher replicaHasher : String → UInt64} {log : Option (List Bytes)}
  {now later : Instant} {pool next : ServerPool hasher}
  {follower after : Follower replicaHasher}

/-- The replica's store is left alone, or loses what has expired. -/
theorem lapse (copies : Copies log now pool follower) (order : now ≤ later)
    (handled : after.handled = follower.handled)
    (bound : after.server.db.maxMemoryBytes =
      follower.server.db.maxMemoryBytes)
    (forgets : TimedMap.Forgets later follower.server.db.contents
      after.server.db.contents) : Copies log later pool after := by
  refine ⟨bound.trans copies.unbounded, fun since isSince => ?_⟩
  rw [handled]
  exact (copies.outlives since isSince).lapse order forgets

theorem keep (copies : Copies log now pool follower) (order : now ≤ later)
    (kept : after.handled = follower.handled ∧
      after.server.db = follower.server.db) : Copies log later pool after := by
  refine copies.lapse order kept.1 (by rw [kept.2]) ?_
  rw [kept.2]
  exact TimedMap.Forgets.refl _ _

theorem wait (copies : Copies log now pool follower) (order : now ≤ later) :
    Copies log later pool follower :=
  copies.keep order ⟨rfl, rfl⟩

/-- The master acts. -/
theorem relay (copies : Copies log now pool follower)
    (relays : pool.Relays now later next)
    (behind : ∀ since ∈ log, since.length ≤ pool.propagated.length ∧
      follower.handled.length ≤ (pool.propagated.drop since.length).length) :
    Copies log later next follower := by
  refine ⟨copies.unbounded, fun since isSince => ?_⟩
  obtain ⟨-, raws, propagated, outlives⟩ := relays
  obtain ⟨early, some⟩ := behind since isSince
  have grown : next.unhandled since follower.handled =
      pool.unhandled since follower.handled ++ raws := by
    rw [ServerPool.unhandled, propagated, List.drop_append_of_le_length early,
      List.drop_append_of_le_length some]
    rfl
  rw [grown, List.map_append]
  exact outlives _ _ (copies.outlives since isSince)

/-- The next frame is replayed. -/
theorem absorb {state : ReplicaStream replicaHasher}
    (copies : Copies log now pool (.streaming state)) {moment : Moment}
    (timely : Timely now later moment.clock) {raw tail : Bytes}
    (upcoming : ∀ since ∈ log, ∃ rest,
      pool.unhandled since state.handled = raw :: rest) :
    Copies log later pool (.streaming ({ state with
        buffer := tail
        handled := state.handled ++ [ReplicatedPool.frameOf raw] }.absorb moment
      raw.length (Value.ofFrame raw))) := by
  have follows := Command.replay_late timely copies.unbounded
    (Value.ofFrame raw)
  rw [ReplicaStream.absorb_eq]
  refine ⟨follows.unbounded, fun since isSince => ?_⟩
  obtain ⟨rest, first⟩ := upcoming since isSince
  have shorter : pool.unhandled since
      (state.handled ++ [ReplicatedPool.frameOf raw]) = rest := by
    rw [ServerPool.unhandled] at first ⊢
    rw [List.length_append, List.length_singleton, ← List.drop_drop, first]
    rfl
  have held := copies.outlives since isSince
  change Outlives now _ ((pool.unhandled since state.handled).map _) _ at held
  rw [first, List.map_cons] at held
  change Outlives later _ ((pool.unhandled since
    (state.handled ++ [ReplicatedPool.frameOf raw])).map _) _
  rw [shorter]
  exact (held.arrive timely.begins (timely.ends 0)).lapse (Nat.le_refl _)
    follows.forgets

end Copies

/-- A master with its replicas, and the time. -/
structure TimedReplication (hasher replicaHasher : String → UInt64) where
  system : ReplicatedPool hasher replicaHasher
  now : Instant

namespace TimedReplication

variable {hasher replicaHasher : String → UInt64} (config : PoolConfig)

/-- An action that ends at a time. -/
def step (state : TimedReplication hasher replicaHasher)
    (action : ReplicationAction replicaHasher × Instant) :
    Option (TimedReplication hasher replicaHasher) :=
  (state.system.step config action.1).map fun next => ⟨next, action.2⟩

/-- The clock does not go back, the master propagates its own commands only, no
memory is bounded, and other tasks of a replica drop from its store what has
expired. -/
def InTime (state : TimedReplication hasher replicaHasher) :
    ReplicationAction replicaHasher × Instant → Prop
  | (.master action, later) => action.InTime state.now later ∧
      ∀ rawResp, action ≠ .propagate rawResp
  | (.attach _ _ _ db, later) => state.now ≤ later ∧ db.maxMemoryBytes = 0
  | (.replay _ moment, later) => Timely state.now later moment.clock
  | (.others channel server, later) => state.now ≤ later ∧
      ReplicatedPool.Sustains state.system (.others channel server) ∧
      ∀ attachment ∈ state.system.attachments channel,
        let known := attachment.follower.server.db
        server.db.maxMemoryBytes = known.maxMemoryBytes ∧
          TimedMap.Forgets later known.contents server.db.contents
  | (_, later) => state.now ≤ later

def start (server : ServerState hasher) :
    TimedReplication hasher replicaHasher :=
  ⟨.start server, 0⟩

variable {config} {server : ServerState hasher}
  {state next : TimedReplication hasher replicaHasher}
  {action : ReplicationAction replicaHasher × Instant}

theorem InTime.order (inTime : state.InTime action) : state.now ≤ action.2 := by
  obtain ⟨act, later⟩ := action
  cases act with
  | master action => exact inTime.1.order
  | attach | others => exact inTime.1
  | replay => exact Timely.order inTime
  | deliver | receive | advance => exact inTime

theorem InTime.sustains (inTime : state.InTime action) :
    ReplicatedPool.Sustains state.system action.1 := by
  obtain ⟨act, later⟩ := action
  cases act with
  | master action =>
      cases action with
      | propagate rawResp => exact absurd rfl (inTime.2 rawResp)
      | _ => trivial
  | others channel server => exact inTime.2.1
  | _ => trivial

open ReplicatedPool (InTouch Registers frameOf)
open ServerPool (RegisteredAfter)

variable {log : Option (List Bytes)} {channel : ChannelId}

/-- The replicas are in step, and the one on a channel copies the master. -/
structure Covered (server : ServerState hasher) (log : Option (List Bytes))
    (channel : ChannelId) (state : TimedReplication hasher replicaHasher) :
    Prop where
  inTouch : InTouch server state.system
  unbounded : state.system.pool.server.db.maxMemoryBytes = 0
  since : ∀ prior ∈ log, RegisteredAfter prior channel state.system.pool
  copies : ∀ client attachment,
    state.system.pool.clients channel = some client →
    client.connection.phase ≠ .closed →
    state.system.attachments channel = some attachment →
      Copies log state.now state.system.pool attachment.follower

/-- The frame that comes after those handled. -/
theorem drop_of_map_frameOf {raws : List Bytes}
    {handled others : List (Bytes × Value)} {raw : Bytes}
    (split : raws.map frameOf = handled ++ frameOf raw :: others) :
    ∃ rest, raws.drop handled.length = raw :: rest := by
  have firsts := congrArg (List.map Prod.fst) split
  have same : (raws.map frameOf).map Prod.fst = raws := by
    simp [frameOf, Function.comp_def]
  rw [same, List.map_append, List.map_cons] at firsts
  rw [firsts, ← List.length_map Prod.fst, List.drop_left]
  exact ⟨_, rfl⟩

/-- The master acts. -/
theorem Covered.master (covered : Covered server log channel state)
    (master : server.replState.isReplica = false) {action : PoolAction}
    {later : Instant} (inTime : action.InTime state.now later)
    (own : ∀ rawResp, action ≠ .propagate rawResp) {pool : ServerPool hasher}
    (acted : state.system.pool.step config action = some pool) :
    pool.server.db.maxMemoryBytes = 0 ∧
      ∀ client attachment, pool.clients channel = some client →
        client.connection.phase ≠ .closed →
        state.system.attachments channel = some attachment →
          Copies log later pool attachment.follower := by
  have role : state.system.pool.server.replState.isReplica = false := by
    rw [ReplicationState.isReplica, covered.inTouch.logged.counts.role]
    exact master
  have relays := ServerPool.relays_step covered.unbounded role
    covered.inTouch.logged inTime own acted
  refine ⟨relays.1, fun client attachment found stillOpen attached => ?_⟩
  obtain ⟨before, isBefore, -⟩ :=
    covered.inTouch.linked channel attachment attached
  have wasOpen := ServerPool.open_of_step acted isBefore found stillOpen
  refine (covered.copies before attachment isBefore wasOpen attached).relay
    relays fun prior isPrior => ?_
  have since := covered.since prior isPrior
  have handled := (covered.inTouch.handled_first since isBefore wasOpen
    attached).length_le
  rw [List.length_map] at handled
  exact ⟨since.1.length_le, handled⟩

/-- The replica takes a step by itself. -/
theorem Covered.follow (covered : Covered server log channel state)
    {client : Client} {attachment : Attachment replicaHasher}
    (found : state.system.pool.clients channel = some client)
    (stillOpen : client.connection.phase ≠ .closed)
    (attached : state.system.attachments channel = some attachment)
    (inTime : state.InTime action) {follower : Follower replicaHasher}
    (moves : ReplicatedPool.FollowerMove channel attachment.follower action.1
      follower) :
    Copies log action.2 state.system.pool follower := by
  obtain ⟨act, later⟩ := action
  have copies := covered.copies client attachment found stillOpen attached
  have order : state.now ≤ later := inTime.order
  cases moves with
  | advances advanced =>
      exact copies.keep order (Follower.advance_keeps advanced)
  | others other =>
      obtain ⟨-, -, drops⟩ := inTime
      obtain ⟨bound, forgets⟩ := drops attachment attached
      have kept := attachment.follower.others_keeps other
      refine copies.lapse order kept.1 ?_ ?_
      · rw [kept.2]
        exact bound
      · rw [kept.2]
        exact forgets
  | replays replayed =>
      obtain ⟨asked, unwritten, answering, -, -, following⟩ :=
        covered.inTouch.link found stillOpen attached
      obtain ⟨stream, streaming, moved⟩ := ReplicatedPool.replay_cases
        (covered.inTouch.framed found stillOpen answering) following replayed
      rw [streaming] at copies
      rcases moved with ⟨raw, -, tail, ⟨remaining, whole, -⟩, rfl⟩ | rfl
      · refine copies.absorb inTime fun prior isPrior => ?_
        obtain ⟨queue, split⟩ := covered.inTouch.log_since
          (covered.since prior isPrior) found stillOpen attached
        have upcoming : (client.forwarded ++ queue).map frameOf =
            stream.handled ++ frameOf raw :: (remaining ++ queue.map frameOf) := by
          rw [List.map_append, whole]
          simp
        rw [ServerPool.unhandled, ← split]
        exact drop_of_map_frameOf upcoming
      · exact copies.keep order ⟨rfl, rfl⟩

section Runs

variable (nonempty : server.replState.masterReplid ≠ "")
  (solid : ∀ character ∈ server.replState.masterReplid.toList,
    isWhitespace character = false)
  (master : server.replState.isReplica = false)

include nonempty solid master

end Runs

section Examples

open ReplicatedPool (attachActions)

/-- The actions of a schedule are in time one after another. -/
def Ordered (hasher : String → UInt64) (now : Instant) :
    List (ReplicationAction replicaHasher × Instant) → Prop
  | [] => True
  | action :: actions =>
      (∀ state : TimedReplication hasher replicaHasher, state.now = now →
        state.InTime action) ∧ Ordered hasher action.2 actions

end Examples

end TimedReplication

end RustiCache
