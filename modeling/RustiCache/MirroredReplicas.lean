import RustiCache.OffsetAgreement
import RustiCache.PropagatedWrites

/-!
# The contents of a replica

A replica changes its store by the frames of the stream alone: what it stores is
what these frames make of the contents that it had before.
-/

namespace RustiCache

open Command (frameWrites)

/-- The frames of the stream that a replica has handled. -/
def Follower.handled {hasher : String → UInt64} :
    Follower hasher → List (Bytes × Value)
  | syncing _ _ => []
  | streaming state => state.handled

namespace ServerPool

variable {hasher : String → UInt64} {config : PoolConfig}
  {pool next : ServerPool hasher} {channel : ChannelId}

/-- A closed connection stays closed. -/
theorem closed_step {action : PoolAction}
    (closed : HoldsAt (fun client => client.connection.phase = .closed)
      pool.clients channel)
    (taken : pool.step config action = some next) :
    HoldsAt (fun client => client.connection.phase = .closed) next.clients
      channel := by
  cases transition_of_step taken with
  | accept fresh => exact closed.accept fresh
  | hangUp own found stillOpen isClosed =>
      exact closed.act found fun _ _ => isClosed
  | fill found waiting =>
      exact closed.act found fun _ isClosed =>
        absurd (waiting.symm.trans isClosed) (by decide)
  | forward found waiting =>
      exact closed.act found fun _ isClosed =>
        absurd (waiting.symm.trans isClosed) (by decide)
  | turn found draining =>
      exact closed.act found fun _ isClosed =>
        absurd (draining.symm.trans isClosed) (by decide)
  | propagate rawResp => exact closed
  | purge now samplePerShard => exact closed

theorem open_of_step {action : PoolAction} {before after : Client}
    (taken : pool.step config action = some next)
    (isBefore : pool.clients channel = some before)
    (isAfter : next.clients channel = some after)
    (stillOpen : after.connection.phase ≠ .closed) :
    before.connection.phase ≠ .closed := by
  intro closed
  obtain ⟨client, found, isClosed⟩ :=
    closed_step ⟨before, isBefore, closed⟩ taken
  rw [isAfter] at found
  cases found
  exact stillOpen isClosed

end ServerPool

namespace ReplicatedPool

open ServerPool (HoldsAt)

variable {hasher replicaHasher : String → UInt64} {config : PoolConfig}
  {server : ServerState hasher}
  {system next : ReplicatedPool hasher replicaHasher} {channel : ChannelId}

/-- What a replica stores is what the frames it has handled make of some
contents. -/
structure Mirrored (base : TimedMap String Bytes Instant)
    (follower : Follower replicaHasher) : Prop where
  contents : follower.server.db.contents = KeyWrite.applyAll base
    (follower.handled.flatMap fun frame => frameWrites frame.1)
  unbounded : follower.server.db.maxMemoryBytes = 0

section Follower

variable {base : TimedMap String Bytes Instant}
  {follower after : Follower replicaHasher}

theorem Mirrored.receive (mirrored : Mirrored base follower) {chunk : Bytes}
    (received : follower.receive chunk = some after) :
    Mirrored base after := by
  cases follower with
  | syncing server task =>
      obtain ⟨replica, read, rfl⟩ := Option.map_eq_some_iff.mp received
      exact ⟨mirrored.contents, mirrored.unbounded⟩
  | streaming state =>
      obtain ⟨later, read, rfl⟩ := Option.map_eq_some_iff.mp received
      simp only [ReplicaStream.step, ReplicaStream.receive] at read
      split at read
      next =>
        cases read
        split <;> exact ⟨mirrored.contents, mirrored.unbounded⟩
      next => cases read

theorem Mirrored.advance (mirrored : Mirrored base follower)
    (advanced : follower.advance = some after) : Mirrored base after := by
  cases follower with
  | syncing server task =>
      obtain ⟨replica, read, rfl⟩ := Option.map_eq_some_iff.mp advanced
      split <;> exact ⟨mirrored.contents, mirrored.unbounded⟩
  | streaming state => cases advanced

theorem Mirrored.others (mirrored : Mirrored base follower)
    {server : ServerState replicaHasher}
    (contents : server.db.contents = follower.server.db.contents)
    (bound : server.db.maxMemoryBytes = follower.server.db.maxMemoryBytes) :
    Mirrored base (follower.others server) := by
  cases follower with
  | syncing old task =>
      exact ⟨contents.trans mirrored.contents, bound.trans mirrored.unbounded⟩
  | streaming state =>
      exact ⟨contents.trans mirrored.contents, bound.trans mirrored.unbounded⟩

/-- A frame of the log is replayed as its writes. -/
theorem Mirrored.replay {replid : String} {forwarded : List Bytes}
    {pending : Bytes} {moment : Moment}
    (framed : ∀ raw ∈ forwarded, Value.IsFrame raw)
    (written : ∀ raw ∈ forwarded, (Command.writesOf raw).isSome)
    (following : Following replid forwarded pending follower)
    (mirrored : Mirrored base follower)
    (replayed : follower.replay moment = some after) :
    Mirrored base after := by
  obtain ⟨state, rfl, moved⟩ := replay_cases framed following replayed
  rcases moved with ⟨raw, inForwarded, tail, -, rfl⟩ | rfl
  · obtain ⟨writes, isWrite⟩ :=
      Option.isSome_iff_exists.mp (written raw inForwarded)
    have found : Value.attempt raw =
        .complete (Value.ofFrame raw) raw.length :=
      framed raw inForwarded
    obtain ⟨contents, unbounded⟩ := Command.replayFrame_writes isWrite
      mirrored.unbounded moment
    simp only [Command.replayFrame, found] at contents unbounded
    rw [ReplicaStream.absorb_eq]
    refine ⟨contents.trans ?_, unbounded⟩
    rw [mirrored.contents]
    simp only [Follower.handled, List.flatMap_append, List.flatMap_cons,
      List.flatMap_nil, List.append_nil, KeyWrite.applyAll_append, frameOf,
      frameWrites, isWrite, Option.getD_some]
  · exact ⟨mirrored.contents, mirrored.unbounded⟩

end Follower

/-- No command sets an expiry, no memory is bounded, and other tasks of a
replica leave its contents alone. -/
def WithoutExpiry (system : ReplicatedPool hasher replicaHasher) :
    ReplicationAction replicaHasher → Prop
  | .master action => ServerPool.Unexpiring system.pool action
  | .attach _ _ _ db => db.maxMemoryBytes = 0
  | .others channel server =>
      ∀ attachment ∈ system.attachments channel,
        let known := attachment.follower.server
        server.replState.masterReplid = known.replState.masterReplid ∧
          server.replState.replicaBytesProcessed =
            known.replState.replicaBytesProcessed ∧
          server.db.contents = known.db.contents ∧
          server.db.maxMemoryBytes = known.db.maxMemoryBytes
  | _ => True

theorem sustains_of_withoutExpiry {action : ReplicationAction replicaHasher}
    (allowed : WithoutExpiry system action) : Sustains system action := by
  cases action with
  | master action =>
      cases action with
      | propagate rawResp => exact allowed.elim
      | _ => trivial
  | others channel server =>
      intro attachment attached
      obtain ⟨same, published, -⟩ := allowed attachment attached
      exact ⟨same, published⟩
  | _ => trivial

/-- The replica on an open connection of a channel mirrors the stream. -/
def MirroredAt (bases : TimedMap String Bytes Instant → Prop)
    (channel : ChannelId) (system : ReplicatedPool hasher replicaHasher) :
    Prop :=
  ∀ client attachment, system.pool.clients channel = some client →
    client.connection.phase ≠ .closed →
    system.attachments channel = some attachment →
      ∃ base, bases base ∧ Mirrored base attachment.follower

theorem mirroredAt_put {bases : TimedMap String Bytes Instant → Prop}
    (mirroredAt : MirroredAt bases channel system) {other : ChannelId}
    {attachment : Attachment replicaHasher}
    (own : ∀ client, other = channel →
      system.pool.clients channel = some client →
      client.connection.phase ≠ .closed →
        ∃ base, bases base ∧ Mirrored base attachment.follower) :
    MirroredAt bases channel (system.put other attachment) := by
  intro client changed found stillOpen attached
  simp only [put] at attached
  rcases ServerPool.of_update_eq_some attached with
    ⟨same, rfl⟩ | ⟨-, elsewhere⟩
  · exact own client same.symm found stillOpen
  · exact mirroredAt client changed found stillOpen elsewhere

/-- The master acts. -/
theorem mirroredAt_pool {bases : TimedMap String Bytes Instant → Prop}
    (mirroredAt : MirroredAt bases channel system)
    (inTouch : InTouch server system) {action : PoolAction}
    {pool : ServerPool hasher}
    (acted : system.pool.step config action = some pool) :
    MirroredAt bases channel { system with pool := pool } := by
  intro client attachment found stillOpen attached
  obtain ⟨before, isBefore, -⟩ := inTouch.linked channel attachment attached
  have wasOpen := ServerPool.open_of_step acted isBefore found stillOpen
  exact mirroredAt before attachment isBefore wasOpen attached

/-- Every step keeps what the replica stores in line with what it has
handled. -/
theorem mirroredAt_step {bases : TimedMap String Bytes Instant → Prop}
    (inTouch : InTouch server system)
    (written : ∀ raw ∈ system.pool.propagated, (Command.writesOf raw).isSome)
    (free : system.attachments channel = none → ∀ base, bases base)
    (mirroredAt : MirroredAt bases channel system)
    {action : ReplicationAction replicaHasher}
    (allowed : WithoutExpiry system action)
    (taken : system.step config action = some next) :
    MirroredAt bases channel next := by
  cases transition_of_step config taken with
  | master unread acted => exact mirroredAt_pool mirroredAt inTouch acted
  | attach masterHost masterPort db found unattached idle =>
      refine mirroredAt_put mirroredAt fun client own _ _ => ?_
      subst own
      exact ⟨db.contents, free unattached _, rfl, allowed⟩
  | @deliver _ _ attachment pool attached acted =>
      have moved := mirroredAt_pool mirroredAt inTouch acted
      refine mirroredAt_put moved fun client own found stillOpen => ?_
      subst own
      exact moved client attachment found stillOpen attached
  | receive isFound attached some enough received =>
      refine mirroredAt_put mirroredAt fun client own found stillOpen => ?_
      subst own
      obtain ⟨base, among, mirrored⟩ :=
        mirroredAt client _ found stillOpen attached
      exact ⟨base, among, mirrored.receive received⟩
  | @follow _ other attachment follower attached moves =>
      refine mirroredAt_put mirroredAt fun client own found stillOpen => ?_
      subst own
      obtain ⟨base, among, mirrored⟩ :=
        mirroredAt client _ found stillOpen attached
      refine ⟨base, among, ?_⟩
      cases moves with
      | advances advanced => exact mirrored.advance advanced
      | others server =>
          obtain ⟨-, -, contents, bound⟩ := allowed attachment attached
          exact mirrored.others contents bound
      | replays replayed =>
          obtain ⟨same, isFound, linked⟩ :=
            inTouch.linked other attachment attached
          rw [found] at isFound
          cases isFound
          obtain ⟨asked, unwritten, answering, -, -, following⟩ :=
            linked stillOpen
          have logged : ∀ raw ∈ client.forwarded, raw ∈ system.pool.propagated :=
            fun _ => inTouch.mem_propagated found stillOpen answering.once
          exact mirrored.replay
            (fun raw member => inTouch.logged.framed raw (logged raw member))
            (fun raw member => written raw (logged raw member)) following
            replayed

end ReplicatedPool

end RustiCache
