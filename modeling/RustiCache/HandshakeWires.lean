import RustiCache.ConnectionFraming
import RustiCache.HandshakeReaders

/-!
# The wires between a replica and its master

The bytes on their way to the master are the rest of a command.  Those on their
way to the replica are the rest of a reply, followed by what has been propagated
since the registration.  Every action of the replica, the master and the other
tasks of the master moves bytes along the wires or adds to their ends.
-/

namespace RustiCache

namespace ReplicationLink

variable {hasher : String → UInt64} (config : ConnectionConfig)

/-- The master's side of the replication: its id, and the connection's channel,
which gets what is propagated once the connection is registered. -/
structure Serving (replid : String) (server : ServerState hasher)
    (isDownstreamReplica : Bool) (propagated : List Bytes) : Prop where
  alive : ∃ queue, server.channels config.channel = some queue
  registered : server.replState.downstreamSenders.count config.channel =
    if isDownstreamReplica then 1 else 0
  quiet : isDownstreamReplica = false → propagated = []
  replid : server.replState.masterReplid = replid

/-- The wires carry the rest of a command one way, and the other way the rest
of a reply and then the propagated bytes. -/
structure Wires (replid : String) (link : ReplicationLink hasher)
    (asked owed : Bytes) : Prop where
  stillOpen : link.master.connection.phase ≠ .closed
  asked : link.master.connection.buffer ++ link.toMaster = asked
  settled : link.master.connection.phase = .waiting →
    Value.attempt link.master.connection.buffer = .incomplete
  received : link.received ≤ link.master.connection.sent.length
  pending : link.replica.buffer ++ (link.inFlight ++ link.queued config) =
    owed ++ link.propagated.flatten
  written : owed.length ≤ link.replica.buffer.length + link.inFlight.length
  serving : Serving config replid link.master.server
    link.master.connection.isDownstreamReplica link.propagated

variable {config}

/-- What is propagated reaches the channel exactly if the connection is
registered. -/
theorem Serving.propagate {replid : String} {server : ServerState hasher}
    {isDownstreamReplica : Bool} {propagated : List Bytes}
    (serving : Serving config replid server isDownstreamReplica propagated)
    (rawResp : Bytes) :
    Serving config replid (propagateDownstream server rawResp)
        isDownstreamReplica
        (if isDownstreamReplica then propagated ++ [rawResp] else propagated) ∧
      (((propagateDownstream server rawResp).channels
          config.channel).getD []).flatten =
        ((server.channels config.channel).getD []).flatten ++
          if isDownstreamReplica then rawResp else [] := by
  obtain ⟨queue, alive⟩ := serving.alive
  obtain ⟨received, kept⟩ := ReplicationState.retainSending_alive rawResp
    server.replState.downstreamSenders alive
  rw [serving.registered] at received kept
  have channel : (propagateDownstream server rawResp).channels
      config.channel =
        some (queue ++ List.replicate (if isDownstreamReplica then 1 else 0)
          rawResp) :=
    received
  refine ⟨⟨⟨_, channel⟩, kept, ?_, serving.replid⟩, ?_⟩
  · intro unregistered
    rw [unregistered]
    exact serving.quiet unregistered
  · rw [channel, alive]
    cases isDownstreamReplica <;> simp

theorem Serving.register {replid : String} {server : ServerState hasher}
    {propagated : List Bytes}
    (serving : Serving config replid server false propagated) :
    Serving config replid
      { server with
        replState := server.replState.registerDownstream config.channel }
      true propagated where
  alive := serving.alive
  registered := by
    have unregistered := serving.registered
    simp only [ReplicationState.registerDownstream, List.count_append,
      List.count_singleton_self]
    rw [unregistered]
    rfl
  quiet := nofun
  replid := serving.replid

namespace Wires

variable {replid : String} {link : ReplicationLink hasher}
  {asked owed : Bytes}

theorem send (wires : Wires config replid link asked owed) {bytes : Bytes}
    {replica : ReplicaTask} (same : replica.buffer = link.replica.buffer) :
    Wires config replid
      { link with
        replica := replica
        toMaster := link.toMaster ++ bytes }
      (asked ++ bytes) owed where
  stillOpen := wires.stillOpen
  asked := by
    dsimp only
    rw [← List.append_assoc, wires.asked]
  settled := wires.settled
  received := wires.received
  pending := by
    dsimp only
    rw [same]
    exact wires.pending
  written := by
    dsimp only
    rw [same]
    exact wires.written
  serving := wires.serving

/-- The replica takes the next part of the reply off its buffer, and that part
only. -/
theorem advance {piece : Bytes}
    (wires : Wires config replid link asked (piece ++ owed))
    {stage : HandshakeStage} {replState : ReplicationState}
    (reads : link.replica.ReadsOff piece stage replState)
    {replica : ReplicaTask} (advanced : link.replica.advance = some replica) :
    (∃ tail, replica = ⟨stage, tail, replState,
        ReplicaTask.credit piece link.replica.reads⟩) ∧
      Wires config replid { link with replica := replica } asked owed := by
  have pending := wires.pending
  rw [List.append_assoc] at pending
  rcases reads pending with ⟨waits, -⟩ | ⟨tail, rest, goesOn⟩
  · rw [advanced] at waits
    cases waits
  · rw [advanced] at goesOn
    cases goesOn
    have front : link.replica.buffer = piece ++ tail := by
      rw [← rest, ← List.append_assoc piece] at pending
      exact List.append_cancel_right pending
    have written := wires.written
    rw [front, List.length_append, List.length_append] at written
    exact ⟨⟨tail, rfl⟩,
      { stillOpen := wires.stillOpen
        asked := wires.asked
        settled := wires.settled
        received := wires.received
        pending := rest
        written := by
          change owed.length ≤ tail.length + link.inFlight.length
          omega
        serving := wires.serving }⟩

theorem receive (wires : Wires config replid link asked owed) {count : Nat}
    (available : count ≤ link.inFlight.length) :
    Wires config replid
      { link with
        replica := { link.replica with
          buffer := link.replica.buffer ++ link.inFlight.take count }
        received := link.received + count }
      asked owed := by
  have left : link.master.connection.sent.drop (link.received + count) =
      link.inFlight.drop count := by
    rw [inFlight, List.drop_drop]
  have lengths : link.inFlight.length =
      link.master.connection.sent.length - link.received := by
    rw [inFlight, List.length_drop]
  have received := wires.received
  refine
    { stillOpen := wires.stillOpen
      asked := wires.asked
      settled := wires.settled
      received := ?_
      pending := ?_
      written := ?_
      serving := wires.serving }
  · dsimp only
    omega
  · have pending := wires.pending
    rw [← List.take_append_drop count link.inFlight] at pending
    simp only [inFlight, queued, left, List.append_assoc] at pending ⊢
    exact pending
  · have written := wires.written
    simp only [inFlight, left, List.length_append, List.length_take,
      List.length_drop] at written lengths available ⊢
    omega

theorem deliver (wires : Wires config replid link asked owed) (count : Nat) :
    Wires config replid
      { link with
        master := ⟨link.master.server,
          { link.master.connection with
            buffer := link.master.connection.buffer ++ link.toMaster.take count
            phase := .draining }⟩
        toMaster := link.toMaster.drop count }
      asked owed where
  stillOpen := nofun
  asked := by
    dsimp only
    rw [List.append_assoc, List.take_append_drop]
    exact wires.asked
  settled := nofun
  received := wires.received
  pending := wires.pending
  written := wires.written
  serving := wires.serving

theorem rest (wires : Wires config replid link asked owed)
    (more : Value.attempt link.master.connection.buffer = .incomplete) :
    Wires config replid
      { link with
        master := ⟨link.master.server,
          { link.master.connection with phase := .waiting }⟩ }
      asked owed where
  stillOpen := nofun
  asked := wires.asked
  settled _ := more
  received := wires.received
  pending := wires.pending
  written := wires.written
  serving := wires.serving

theorem nothing_pending (wires : Wires config replid link asked [])
    (unregistered : link.master.connection.isDownstreamReplica = false) :
    link.replica.buffer = [] ∧ link.inFlight = [] ∧ link.queued config = [] := by
  have pending := wires.pending
  rw [wires.serving.quiet unregistered] at pending
  obtain ⟨buffer, others⟩ := List.append_eq_nil_iff.mp pending
  exact ⟨buffer, List.append_eq_nil_iff.mp others⟩

/-- The master replies to a command that has arrived. -/
theorem answer (wires : Wires config replid link asked [])
    (unregistered : link.master.connection.isDownstreamReplica = false)
    (whole : link.toMaster = [])
    {server : ServerState hasher} {connection : Connection} {reply : Bytes}
    (channels : server.channels = link.master.server.channels)
    (serving : Serving config replid server connection.isDownstreamReplica
      link.propagated)
    (draining : connection.phase = .draining) (drained : connection.buffer = [])
    (sent : connection.sent = link.master.connection.sent ++ reply)
    {answers : List (Bytes × Bytes)} :
    Wires config replid
      { link with
        master := ⟨server, connection⟩
        answers := answers }
      [] reply := by
  obtain ⟨buffer, inFlightNil, queuedNil⟩ := wires.nothing_pending unregistered
  have received := wires.received
  have flies : connection.sent.drop link.received = reply := by
    rw [sent, List.drop_append_of_le_length received, ← inFlight, inFlightNil,
      List.nil_append]
  refine
    { stillOpen := ?_
      asked := ?_
      settled := ?_
      received := ?_
      pending := ?_
      written := ?_
      serving := serving }
  · dsimp only
    rw [draining]
    nofun
  · dsimp only
    rw [drained, whole]
    rfl
  · dsimp only
    rw [draining]
    nofun
  · dsimp only
    rw [sent, List.length_append]
    omega
  · rw [queued] at queuedNil
    simp only [inFlight, queued, flies, channels, queuedNil, buffer,
      wires.serving.quiet unregistered]
    simp
  · simp only [inFlight, flies]
    omega

/-- Bytes move from the channel to the socket. -/
theorem replicate (wires : Wires config replid link asked owed)
    {replicatedBytes : Bytes} {queue : List Bytes}
    (channel : link.master.server.channels config.channel =
      some (replicatedBytes :: queue)) :
    Wires config replid
      { link with
        master := ⟨{ link.master.server with
            channels := Function.update link.master.server.channels
              config.channel (some queue) },
          { link.master.connection.write replicatedBytes with
            phase := .draining }⟩ }
      asked owed := by
  have received := wires.received
  have flies : (link.master.connection.sent ++ replicatedBytes).drop
      link.received = link.inFlight ++ replicatedBytes := by
    rw [List.drop_append_of_le_length received, inFlight]
  refine
    { stillOpen := nofun
      asked := wires.asked
      settled := nofun
      received := ?_
      pending := ?_
      written := ?_
      serving := ?_ }
  · simp only [Connection.write, List.length_append]
    omega
  · have pending := wires.pending
    rw [queued, channel, Option.getD_some, List.flatten_cons] at pending
    rw [inFlight, queued]
    simp only [Connection.write, Function.update_self, Option.getD_some, flies,
      List.append_assoc]
    exact pending
  · have written := wires.written
    rw [inFlight]
    simp only [Connection.write, flies, List.length_append]
    omega
  · exact ⟨⟨queue, Function.update_self _ _ _⟩, wires.serving.registered,
      wires.serving.quiet, wires.serving.replid⟩

/-- Another task of the master acts on its state and adds to the channel. -/
theorem others (wires : Wires config replid link asked owed)
    {server : ServerState hasher} {propagated : List Bytes} {extra : Bytes}
    (serving : Serving config replid server
      link.master.connection.isDownstreamReplica propagated)
    (added : ((server.channels config.channel).getD []).flatten =
      link.queued config ++ extra)
    (noted : propagated.flatten = link.propagated.flatten ++ extra) :
    Wires config replid
      { link with
        master := ⟨server, link.master.connection⟩
        propagated := propagated }
      asked owed where
  stillOpen := wires.stillOpen
  asked := wires.asked
  settled := wires.settled
  received := wires.received
  pending := by
    have pending := congrArg (fun bytes => bytes ++ extra) wires.pending
    simp only [inFlight, queued, added, noted, List.append_assoc] at pending ⊢
    exact pending
  written := wires.written
  serving := serving

end Wires

end ReplicationLink

end RustiCache
