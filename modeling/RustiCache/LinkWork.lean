import RustiCache.HandshakeCompletion
import RustiCache.SettledLinks

/-!
# What is left to be done for a replica

The bytes that a master has still to write to a replica, those on their way to
it and those that it has not replayed make up a measure.  Every step of the
connection and of the replica on it brings the measure down.
-/

namespace RustiCache

namespace ServerPool

variable {hasher : String → UInt64} {config : PoolConfig}
  {pool next : ServerPool hasher} {channel : ChannelId}

/-- A connection changes by its own steps. -/
theorem clients_of_ne {action : PoolAction}
    (taken : pool.step config action = some next)
    (other : actor action ≠ some channel) :
    next.clients channel = pool.clients channel := by
  have apart {own : ChannelId} (isOwn : actor action = some own) :
      channel ≠ own := by
    rintro rfl
    exact other isOwn
  cases transition_of_step taken with
  | accept fresh => exact Function.update_of_ne (apart rfl) ..
  | hangUp own found => exact Function.update_of_ne (apart own) ..
  | fill found => exact Function.update_of_ne (apart rfl) ..
  | forward found => exact Function.update_of_ne (apart rfl) ..
  | turn found => exact Function.update_of_ne (apart rfl) ..
  | propagate | purge => rfl

/-- What waits for a connection is what has been propagated and not written to
it. -/
theorem channels_eq (delivering : pool.Delivering)
    (deliveringNext : next.Delivering) {client : Client}
    (found : pool.clients channel = some client)
    (foundNext : next.clients channel = some client)
    (stillOpen : client.connection.phase ≠ .closed)
    (once : client.registered ≠ none → AsksOnce client.connection)
    (unwritten : next.propagated = pool.propagated) :
    next.server.channels channel = pool.server.channels channel := by
  obtain ⟨queue, queued, holds⟩ :=
    (delivering.clients channel client found).live stillOpen
  obtain ⟨queueNext, queuedNext, holdsNext⟩ :=
    (deliveringNext.clients channel client foundNext).live stillOpen
  rw [queued, queuedNext]
  cases registered : client.registered with
  | none =>
      rw [registered] at holds holdsNext
      rw [holds.1, holdsNext.1]
  | some since =>
      rw [registered] at holds holdsNext
      have asksOnce := once (by simp [registered])
      obtain ⟨-, split, -⟩ := holds asksOnce
      obtain ⟨-, splitNext, -⟩ := holdsNext asksOnce
      rw [unwritten, ← split] at splitNext
      rw [List.append_cancel_left splitNext]

end ServerPool

namespace ReplicatedPool

variable {hasher replicaHasher : String → UInt64} {config : PoolConfig}

/-- What is left to be done for the reply to `PSYNC`, which is a line and a
snapshot. -/
def replyWork (line snapshot : Bytes) (client : Client) : Nat :=
  match client.stage, client.registered with
  | .ready, none => 3 + 3 * (line ++ snapshot).length
  | .announced, none => 2 + 3 * snapshot.length
  | .transferred, none => 1
  | _, _ => 0

/-- What is left to be done with the bytes that a replica has got. -/
def followerWork : Follower replicaHasher → Nat
  | .syncing _ task => 2 * task.stage.distance + task.buffer.length
  | .streaming state =>
      state.buffer.length + if state.phase = .draining then 1 else 0

/-- What is left to be done on a connection and by the replica on it, with the
byte strings that wait to be written to it.  A byte is written, received and
replayed. -/
def linkWork (replid : String) (queue : List Bytes) (client : Client)
    (attachment : Attachment replicaHasher) : Nat :=
  replyWork (resyncLine replid) (snapshotHeader ++ getEmptyRdbBytes) client +
    (if client.connection.phase = .draining then 1 else 0) +
    (queue.map fun raw => 3 * raw.length + 2).sum +
    2 * attachment.toMaster.length + 3 * (inFlight client attachment).length +
    followerWork attachment.follower

section Work

variable {replid : String} {client : Client}
  {attachment : Attachment replicaHasher} {queue : List Bytes}

/-- The connection goes to rest. -/
theorem linkWork_rest (draining : client.connection.phase = .draining)
    (queue : List Bytes) :
    linkWork replid queue
        { client with
          connection := { client.connection with phase := .waiting } }
        attachment + 1 ≤
      linkWork replid queue client attachment := by
  simp only [linkWork, replyWork, inFlight, draining, if_true, reduceCtorEq,
    if_false]
  omega

/-- A step of a connection that drains its buffer. -/
theorem linkWork_turn (linked : Linked replid client attachment)
    {pool : ServerPool hasher}
    (same : pool.server.replState.masterReplid = replid)
    (draining : client.connection.phase = .draining) (moment : Moment)
    (channel : ChannelId) (queue : List Bytes) :
    let outcome := client.connection.turn (config.ofChannel channel) moment
      pool.server client.stage
    let next := { client with
      connection := outcome.1.connection
      stage := outcome.2
      registered := pool.noted client }
    outcome.1.server.channels = pool.server.channels ∧
      next.connection.phase ≠ .closed ∧
      linkWork replid queue next attachment + 1 ≤
        linkWork replid queue client attachment := by
  obtain ⟨asked, unwritten, answering, buffered, bound, -⟩ := linked
  obtain ⟨connection, stage, registered, forwarded⟩ := client
  have drains : connection.phase = .draining := draining
  have rests (ready : stage = .ready)
      (found : Value.attempt connection.buffer = .incomplete) :
      let outcome := connection.turn (config.ofChannel channel) moment
        pool.server stage
      let next : Client := ⟨outcome.1.connection, outcome.2,
        pool.noted ⟨connection, stage, registered, forwarded⟩, forwarded⟩
      outcome.1.server.channels = pool.server.channels ∧
        next.connection.phase ≠ .closed ∧
        linkWork replid queue next attachment + 1 ≤
          linkWork replid queue ⟨connection, stage, registered, forwarded⟩
            attachment := by
    subst ready
    have outcomeEq : connection.turn (config.ofChannel channel) moment
        pool.server .ready = (⟨pool.server,
          { connection with phase := .waiting }⟩, .ready) :=
      Connection.begin_incomplete moment pool.server found
    rw [ServerPool.noted_of_ne (by simp)]
    dsimp only
    rw [outcomeEq]
    exact ⟨rfl, by simp, linkWork_rest draining queue⟩
  cases answering with
  | asked ready unregistered fresh =>
      by_cases arrived : attachment.toMaster = []
      · rw [arrived, List.append_nil] at buffered
        obtain rfl : stage = .ready := ready
        obtain rfl : registered = none := unregistered
        have outcomeEq : connection.turn (config.ofChannel channel) moment
            pool.server .ready = _ :=
          Connection.begin_psync moment pool.server buffered
        rw [ServerPool.noted_of_ne (by simp)]
        dsimp only
        rw [outcomeEq]
        refine ⟨rfl, by rw [draining]; simp, ?_⟩
        simp only [linkWork, replyWork, inFlight, same, List.length_append,
          List.length_drop] at bound ⊢
        omega
      · have accepted : Value.decoder.Accepts
            (connection.buffer ++ attachment.toMaster)
            HandshakeCommand.psync.value := by
          rw [buffered]
          exact HandshakeCommand.accepts (by decide)
        exact rests ready (accepted.attempt_front arrived)
  | announced ready unregistered once =>
      obtain rfl : stage = .announced := ready
      obtain rfl : registered = none := unregistered
      rw [ServerPool.noted_of_ne (by simp)]
      refine ⟨rfl, by simp [Connection.turn, Connection.write, drains], ?_⟩
      simp only [linkWork, replyWork, inFlight, Connection.turn,
        Connection.write, drains, if_true, List.length_append,
        List.length_drop] at bound ⊢
      omega
  | transferred ready unregistered once =>
      obtain rfl : stage = .transferred := ready
      obtain rfl : registered = none := unregistered
      refine ⟨rfl, by simp [Connection.turn, drains], ?_⟩
      simp only [linkWork, replyWork, inFlight, Connection.turn,
        ServerPool.noted, drains, if_true]
      omega
  | registered ready known once =>
      obtain ⟨empty, -⟩ := List.append_eq_nil_iff.mp buffered
      refine rests ready ?_
      rw [show connection.buffer = [] from empty]
      rfl

/-- The next byte string is written to the replica. -/
theorem linkWork_forward
    (bound : attachment.received ≤ client.connection.sent.length)
    (waiting : client.connection.phase = .waiting) (raw : Bytes)
    (queue : List Bytes) :
    linkWork replid queue
        { client with
          connection := { client.connection.write raw with phase := .draining }
          forwarded := client.forwarded ++ [raw] } attachment + 1 ≤
      linkWork replid (raw :: queue) client attachment := by
  simp only [linkWork, replyWork, inFlight, Connection.write, waiting,
    List.map_cons, List.sum_cons, List.length_drop, List.length_append, if_true,
    reduceCtorEq, if_false]
  omega

/-- Bytes of the replica arrive. -/
theorem linkWork_deliver {count : Nat} (some : 0 < count)
    (enough : count ≤ attachment.toMaster.length)
    (waiting : client.connection.phase = .waiting) (queue : List Bytes) :
    linkWork replid queue
        { client with
          connection := { client.connection with
            buffer := client.connection.buffer ++ attachment.toMaster.take count
            phase := .draining } }
        { attachment with toMaster := attachment.toMaster.drop count } + 1 ≤
      linkWork replid queue client attachment := by
  simp only [linkWork, replyWork, inFlight, waiting, List.length_drop, if_true,
    reduceCtorEq, if_false]
  omega

/-- The replica takes a step by itself. -/
theorem linkWork_follow {follower : Follower replicaHasher}
    (closer : followerWork follower + 1 ≤ followerWork attachment.follower)
    (queue : List Bytes) :
    linkWork replid queue client { attachment with follower := follower } + 1 ≤
      linkWork replid queue client attachment := by
  simp only [linkWork, inFlight] at closer ⊢
  omega

end Work

section Follower

variable {replid : String} {forwarded : List Bytes} {pending : Bytes}
  {follower after : Follower replicaHasher}

theorem followerWork_receive {chunk : Bytes} (nonempty : chunk ≠ [])
    (received : follower.receive chunk = some after) :
    followerWork after ≤ followerWork follower + chunk.length + 1 := by
  cases follower with
  | syncing server task =>
      obtain ⟨replica, read, rfl⟩ := Option.map_eq_some_iff.mp received
      rw [ReplicationLink.receive_cases nonempty read]
      simp only [followerWork, List.length_append]
      omega
  | streaming state =>
      obtain ⟨later, read, rfl⟩ := Option.map_eq_some_iff.mp received
      simp only [ReplicaStream.step, ReplicaStream.receive,
        if_neg nonempty] at read
      split at read
      next =>
        cases read
        simp only [followerWork, List.length_append, if_true]
        omega
      next => cases read

theorem followerWork_advance (nonempty : replid ≠ "")
    (solid : ∀ character ∈ replid.toList, isWhitespace character = false)
    (following : Following replid forwarded pending follower)
    (advanced : follower.advance = some after) :
    followerWork after + 1 ≤ followerWork follower := by
  cases follower with
  | streaming state => cases advanced
  | syncing server task =>
      obtain ⟨-, owed, resync, whole⟩ := following
      obtain ⟨replica, read, rfl⟩ := Option.map_eq_some_iff.mp advanced
      rcases resync.next nonempty solid with
        ⟨stage, -⟩ | ⟨piece, later, stage, replState, rfl, closer, readsOff, -⟩
      · rw [ReplicaTask.advance, stage] at read
        cases read
      · rw [List.append_assoc] at whole
        rcases readsOff whole with ⟨missing, -⟩ | ⟨tail, rest, found⟩
        · rw [missing] at read
          cases read
        · rw [found] at read
          cases read
          have lengths := congrArg List.length whole
          have lengthsRest := congrArg List.length rest
          simp only [List.length_append] at lengths lengthsRest
          split
          next =>
            simp only [followerWork, ReplicaStream.start, if_true]
            omega
          next =>
            simp only [followerWork]
            omega

theorem followerWork_replay {moment : Moment}
    (framed : ∀ raw ∈ forwarded, Value.IsFrame raw)
    (following : Following replid forwarded pending follower)
    (replayed : follower.replay moment = some after) :
    followerWork after + 1 ≤ followerWork follower := by
  cases follower with
  | syncing server task => cases replayed
  | streaming state =>
      obtain ⟨later, read, rfl⟩ := Option.map_eq_some_iff.mp replayed
      simp only [ReplicaStream.step] at read
      split at read
      next draining =>
        cases read
        rcases ReplicaStream.drain_cases (accepts_frameOf framed)
            following.inStep moment with
          ⟨frame, value, others, tail, split, front, -, drained⟩ | ⟨-, drained⟩
        · have accepted := accepts_frameOf framed (frame, value)
            (by rw [split]; simp)
          have positive : 0 < frame.length :=
            List.length_pos_iff.mpr accepted.ne_nil
          have shorter := congrArg List.length front
          rw [List.length_append] at shorter
          rw [drained, ReplicaStream.absorb_eq]
          simp only [followerWork, draining, if_true]
          omega
        · rw [drained]
          simp [followerWork, draining]
      next => cases read

theorem followerWork_others (server : ServerState replicaHasher) :
    followerWork (follower.others server) = followerWork follower := by
  cases follower <;> rfl

/-- Where a replica stands can tell what it does next: it goes on with what it
has got, it waits for what is pending, or it has replayed everything. -/
theorem follower_moves (nonempty : replid ≠ "")
    (solid : ∀ character ∈ replid.toList, isWhitespace character = false)
    (framed : ∀ raw ∈ forwarded, Value.IsFrame raw)
    (following : Following replid forwarded pending follower)
    (awake : follower.Awake) :
    (follower.advance).isSome ∨
      (∀ moment, (follower.replay moment).isSome) ∨
      (pending ≠ [] ∧ ∀ chunk ≠ [], (follower.receive chunk).isSome) ∨
      pending = [] ∧ ∃ state, follower = .streaming state ∧
        state.buffer = [] := by
  cases follower with
  | syncing server task =>
      obtain ⟨-, owed, resync, whole⟩ := following
      cases advanced : task.advance with
      | some next => exact .inl (by simp [Follower.advance, advanced])
      | none =>
          refine .inr (.inr (.inl ⟨?_, fun chunk filled => ?_⟩))
          · rintro rfl
            rcases resync.next nonempty solid with
              ⟨stage, -⟩ | ⟨piece, later, stage, replState, rfl, -, readsOff, -⟩
            · exact awake stage
            · rw [List.append_assoc] at whole
              rcases readsOff whole with ⟨-, short⟩ | ⟨tail, -, found⟩
              · have lengths := congrArg List.length whole
                simp only [List.length_append, List.length_nil] at lengths
                omega
              · rw [advanced] at found
                cases found
          · have reading : (ReplicaTask.eofReason task.stage).isSome := by
              cases resync with
              | line stage | header stage | payload stage => rw [stage]; rfl
              | streaming stage => exact absurd stage awake
            rw [Follower.receive,
              ReplicationLink.receive_waiting reading advanced filled]
            rfl
  | streaming state =>
      cases phase : state.phase with
      | draining =>
          exact .inr (.inl fun moment => by
            simp [Follower.replay, ReplicaStream.step, phase])
      | reading =>
          right
          right
          by_cases arrived : pending = []
          · rcases following.inStep.next (accepts_frameOf framed) with
              ⟨frame, value, others, tail, -, -, -, complete, -⟩ | ⟨-, last⟩
            · have incomplete : Value.decoder.attempt state.buffer = _ :=
                awake phase
              rw [complete] at incomplete
              cases incomplete
            · exact .inr ⟨arrived, state, rfl, (last arrived).1⟩
          · exact .inl ⟨arrived, fun chunk _ => by
              simp [Follower.receive, ReplicaStream.step, phase]⟩
      | stopped => exact absurd phase following.running

end Follower

end ReplicatedPool

end RustiCache
